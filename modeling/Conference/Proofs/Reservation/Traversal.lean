import Conference.Proofs.Reservation.Ancestry
import Mathlib.Data.List.Perm.Subperm

/-!
# Traversals

To list a subtree or to describe it, a program goes through the nodes that are pending, and puts the
children of each that is there in front of the others. Such a *walk* goes by the links alone and so
may never end. It ends at each node of a forest without cycles, with what the bounded traversals
find: on a path downwards no node comes twice, so the bound is never met. From a node that is its
own ancestor no walk ends.
-/

namespace Conference.ReservationForest

variable {β : Type} {f : ReservationForest} {own : Nat → Nat → Option β}

/-- With the given nodes pending, each at its depth, a walk ends and has found the given things in
this order. Of a node, it finds what `own` says; where that is nothing, there is no such node. -/
inductive Walk (f : ReservationForest) (own : Nat → Nat → Option β) :
    List (Nat × Nat) → List β → Prop where
  | done : Walk f own [] []
  | pass {depth key : Nat} {pending : List (Nat × Nat)} {found : List β} :
      own depth key = none → Walk f own pending found → Walk f own ((depth, key) :: pending) found
  | meet {depth key : Nat} {thing : β} {pending : List (Nat × Nat)} {found : List β} :
      own depth key = some thing →
        Walk f own ((f.children key).map (depth + 1, ·) ++ pending) found →
      Walk f own ((depth, key) :: pending) (thing :: found)

/-- What a walk finds over at most `levels` levels. -/
def gatherWithin (f : ReservationForest) (own : Nat → Nat → Option β) :
    (levels depth key : Nat) → List β
  | 0, _, _ => []
  | levels + 1, depth, key =>
    match own depth key with
    | none => []
    | some thing => thing :: (f.children key).flatMap (gatherWithin f own levels (depth + 1))

/-! ## Keys and lines -/

/-- A node as it stands in a list of keys. -/
def keyOf (f : ReservationForest) (_depth key : Nat) : Option Nat :=
  if f.isLive key then some key else none

/-- A node as it stands in a description. -/
def lineOf (f : ReservationForest) (depth key : Nat) : Option String :=
  (f.get? key).map fun node => String.ofList (List.replicate (2 * depth) ' ') ++ node.render

theorem subtreeWithin_eq_gatherWithin (f : ReservationForest) (levels : Nat) :
    ∀ depth key : Nat, f.subtreeWithin levels key = f.gatherWithin f.keyOf levels depth key := by
  induction levels with
  | zero => exact fun _ _ => rfl
  | succ levels ih =>
    intro depth key
    rw [subtreeWithin, gatherWithin, funext (ih (depth + 1)), keyOf]
    split <;> rfl

theorem linesWithin_eq_gatherWithin (f : ReservationForest) (levels : Nat) :
    ∀ depth key : Nat, f.linesWithin levels depth key
      = f.gatherWithin f.lineOf levels depth key := by
  induction levels with
  | zero => exact fun _ _ => rfl
  | succ levels ih =>
    intro depth key
    rw [linesWithin, gatherWithin, funext (ih (depth + 1)), lineOf]
    cases f.get? key <;> rfl

theorem keyOf_eq_none {depth key : Nat} : f.keyOf depth key = none ↔ ¬ f.isLive key := by
  unfold keyOf
  split <;> simp [*]

theorem lineOf_eq_none {depth key : Nat} : f.lineOf depth key = none ↔ ¬ f.isLive key := by
  rw [lineOf, Option.map_eq_none_iff, get?, Option.map_eq_none_iff, List.find?_eq_none, isLive,
    Bool.not_eq_true, List.any_eq_false]

/-! ## Walks that end -/

/-- Walks from the nodes of a list go on to a walk from the whole list. -/
theorem Walk.flatMap {gathered : Nat → List β} {depth : Nat} {pending : List (Nat × Nat)}
    {found : List β} (rest : f.Walk own pending found) (keys : List Nat)
    (each : ∀ key ∈ keys, ∀ {pending found}, f.Walk own pending found →
      f.Walk own ((depth, key) :: pending) (gathered key ++ found)) :
    f.Walk own (keys.map (depth, ·) ++ pending) (keys.flatMap gathered ++ found) := by
  induction keys with
  | nil => exact rest
  | cons key keys ih =>
    rw [List.flatMap_cons, List.append_assoc]
    exact each key List.mem_cons_self
      (ih fun other later => each other (List.mem_cons_of_mem _ later))

/-- A list of different nodes that are there is no longer than the forest. -/
theorem length_le_size {path : List Nat} (different : path.Nodup)
    (live : ∀ key ∈ path, f.isLive key) :
    path.length ≤ f.size := by
  have among : path ⊆ f.entries.map (·.key) := by
    intro key mem
    obtain ⟨e, he, rfl⟩ := isLive_iff.1 (live key mem)
    exact List.mem_map_of_mem he
  have below := (List.subperm_of_subset different among).length_le
  rwa [List.length_map] at below

/-- No node at or below the given one is its own ancestor. -/
def NoCycleBelow (f : ReservationForest) (key : Nat) : Prop :=
  ∀ lower, f.AtOrAbove key lower → ¬ f.Above lower lower

/-- By induction on the levels. The path down to the node holds different nodes, so that together
with the levels that are left it makes up the size of the forest, and no node is left to come when
the levels are used up. -/
theorem walk_gatherWithin (linked : f.WellLinked)
    (there : ∀ depth key, own depth key = none ↔ ¬ f.isLive key) (levels : Nat) :
    ∀ {depth key : Nat} (path : List Nat), path.Nodup →
      (∀ upper ∈ path, f.isLive upper ∧ f.Above upper key) →
      f.NoCycleBelow key → f.size ≤ path.length + levels →
        ∀ {pending found}, f.Walk own pending found →
      f.Walk own ((depth, key) :: pending) (f.gatherWithin own levels depth key ++ found) := by
  induction levels with
  | zero =>
    intro depth key path different above apart enough pending found rest
    refine .pass ((there depth key).2 fun live => ?_) rest
    -- as there is no cycle the path to the key has only live nodes and none twice, so it is not
    -- longer than the forest
    have new : key ∉ path := fun mem => apart key .refl (above key mem).2
    have alive : ∀ upper ∈ key :: path, f.isLive upper :=
      List.forall_mem_cons.2 ⟨live, fun upper before => (above upper before).1⟩
    have fits := length_le_size (List.nodup_cons.2 ⟨new, different⟩) alive
    rw [List.length_cons] at fits
    omega
  | succ levels ih =>
    intro depth key path different above apart enough pending found rest
    rw [gatherWithin]
    cases met : own depth key with
    | none => exact .pass met rest
    | some thing =>
      have live : f.isLive key := by
        by_contra dead
        rw [(there depth key).2 dead] at met
        cases met
      have new : key ∉ path := fun mem => apart key .refl (above key mem).2
      refine .meet met (rest.flatMap _ fun child mem _ _ rest' => ?_)
      have below : f.parent? child = some key := linked.mem_children.1 mem
      refine ih (key :: path) (List.nodup_cons.2 ⟨new, different⟩) ?_
        (fun lower down => apart lower (down.head below)) ?_ rest'
      · intro upper among
        rcases List.mem_cons.1 among with rfl | before
        · exact ⟨live, .single below⟩
        · exact ⟨(above upper before).1, (above upper before).2.tail below⟩
      · rw [List.length_cons]
        omega

/-- Where there are no cycles below, the bounded traversal is the walk. -/
theorem walk_of_noCycleBelow (linked : f.WellLinked)
    (there : ∀ depth key, own depth key = none ↔ ¬ f.isLive key) {key : Nat}
    (apart : f.NoCycleBelow key) (depth : Nat) :
    f.Walk own [(depth, key)] (f.gatherWithin own f.size depth key) := by
  have walk : f.Walk own [(depth, key)] (f.gatherWithin own f.size depth key ++ []) :=
    walk_gatherWithin linked there f.size [] List.nodup_nil nofun apart (Nat.le_add_left _ _) .done
  rwa [List.append_nil] at walk

theorem walk_of_acyclic (linked : f.WellLinked) (acyclic : f.Acyclic)
    (there : ∀ depth key, own depth key = none ↔ ¬ f.isLive key) (depth key : Nat) :
    f.Walk own [(depth, key)] (f.gatherWithin own f.size depth key) :=
  walk_of_noCycleBelow linked there (fun lower _ => acyclic lower) depth

/-! ## Walks that never end -/

/-- No node from which a walk ends has a node at or below it that is its own ancestor. -/
theorem Walk.acyclic_below (linked : f.WellLinked)
    (there : ∀ depth key, own depth key = none ↔ ¬ f.isLive key) {pending : List (Nat × Nat)}
    {found : List β} (walk : f.Walk own pending found) :
    ∀ p ∈ pending, ∀ lower, f.AtOrAbove p.2 lower → ¬ f.Above lower lower := by
  -- a node on a cycle, and each node above one, has a child at or above a node on a cycle
  have descend {key lower : Nat} (down : f.AtOrAbove key lower) (cycle : f.Above lower lower) :
      ∃ child, f.parent? child = some key ∧ f.AtOrAbove child lower := by
    rcases Relation.reflTransGen_iff_eq_or_transGen.1 down with rfl | above
    · exact Relation.TransGen.head'_iff.1 cycle
    · exact Relation.TransGen.head'_iff.1 above
  induction walk with
  | done => exact fun _ never => nomatch never
  | pass absent _ ih =>
    intro p mem lower down cycle
    rcases List.mem_cons.1 mem with rfl | later
    · obtain ⟨child, below, -⟩ := descend down cycle
      exact (there _ _).1 absent (linked.live_of_parent? below)
    · exact ih p later lower down cycle
  | @meet depth key _ _ _ _ _ ih =>
    intro p mem lower down cycle
    rcases List.mem_cons.1 mem with rfl | later
    · obtain ⟨child, below, down'⟩ := descend down cycle
      have among : (depth + 1, child) ∈ (f.children key).map (depth + 1, ·) :=
        List.mem_map_of_mem (linked.mem_children.2 below)
      exact ih _ (List.mem_append_left _ among) lower down' cycle
    · exact ih p (List.mem_append_right _ later) lower down cycle

/-- Where a walk ends from every node, no node is its own ancestor. -/
theorem acyclic_of_walks (linked : f.WellLinked)
    (there : ∀ depth key, own depth key = none ↔ ¬ f.isLive key)
    (walks : ∀ key, ∃ depth found, f.Walk own [(depth, key)] found) : f.Acyclic := by
  intro key
  obtain ⟨depth, found, walk⟩ := walks key
  exact walk.acyclic_below linked there _ List.mem_cons_self key .refl

end Conference.ReservationForest
