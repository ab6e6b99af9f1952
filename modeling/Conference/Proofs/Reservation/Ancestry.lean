import Conference.Proofs.Reservation.Truncation
import Mathlib.Logic.Relation

/-!
# Ancestors

A node has at most one parent, and a link leads from one node that is there to another. All
operations on a forest keep this. A node that is its own ancestor is on a cycle: adding nodes and
taking some away brings up no cycle, and a link does just if it makes a node the child of one of its
own descendants.
-/

namespace Conference.ReservationForest

variable {f g : ReservationForest} {parent child : Nat}

/-- One node is an ancestor of another: its parent, or an ancestor of that. -/
def Above (f : ReservationForest) : (upper lower : Nat) → Prop :=
  Relation.TransGen fun parent child => f.parent? child = some parent

/-- The same, or an ancestor. -/
def AtOrAbove (f : ReservationForest) : (upper lower : Nat) → Prop :=
  Relation.ReflTransGen fun parent child => f.parent? child = some parent

/-- No node is its own ancestor. -/
def Acyclic (f : ReservationForest) : Prop := ∀ key, ¬ f.Above key key

/-- Links lead from nodes that are there to nodes that are there, and no node has two parents. -/
structure WellLinked (f : ReservationForest) : Prop where
  live : ∀ l ∈ f.links, f.isLive l.1 ∧ f.isLive l.2
  single : ∀ l ∈ f.links, ∀ l' ∈ f.links, l.2 = l'.2 → l.1 = l'.1

/-- A parent is read off a link. -/
theorem mem_links_of_parent? (found : f.parent? child = some parent) :
    (parent, child) ∈ f.links := by
  obtain ⟨l, there, rfl⟩ := Option.map_eq_some_iff.1 found
  have named : l.2 = child :=
    eq_of_beq (List.find?_some (p := fun l : Nat × Nat => l.2 == child) there)
  rw [← named]
  exact List.mem_of_find?_eq_some there

/-- An attachment that succeeds links two different nodes, of which the lower one had no parent. -/
theorem attach_eq_ok_iff :
    f.attach parent child = .ok g ↔ f.isLive parent ∧ f.isLive child ∧ parent ≠ child
    ∧ f.parent? child = none ∧ g = { f with links := f.links ++ [(parent, child)] } := by
  unfold attach
  by_cases live : f.isLive parent ∧ f.isLive child
  · rw [live.1, live.2]
    by_cases same : parent = child
    · simp [same]
    · cases free : f.parent? child with
      | none => simp [same, eq_comm]
      | some _ => simp [same]
  · -- one of the ends is missing, which is the first thing that is tested
    have unknown : (!f.isLive parent || !f.isLive child) = true := by
      rcases Classical.not_and_iff_not_or_not.1 live with dead | dead
      · rw [Bool.eq_false_iff.2 dead, Bool.not_false, Bool.true_or]
      · rw [Bool.eq_false_iff.2 dead, Bool.not_false, Bool.or_true]
    rw [if_pos unknown]
    exact iff_of_false nofun fun h => live ⟨h.1, h.2.1⟩

namespace WellLinked

/-- The links are those from parents to their children. -/
theorem parent?_eq_some (h : f.WellLinked) :
    f.parent? child = some parent ↔ (parent, child) ∈ f.links := by
  refine ⟨mem_links_of_parent?, fun linked => ?_⟩
  obtain ⟨l, there⟩ : ∃ l, f.links.find? (·.2 == child) = some l := by
    rw [← Option.isSome_iff_exists, List.find?_isSome]
    exact ⟨_, linked, beq_self_eq_true child⟩
  have named : l.2 = child :=
    eq_of_beq (List.find?_some (p := fun l : Nat × Nat => l.2 == child) there)
  rw [parent?, there, Option.map_some, h.single l (List.mem_of_find?_eq_some there) _ linked named]

/-- As no node has two parents, being among the children of a node and having it as the parent is
the same. -/
theorem mem_children (h : f.WellLinked) :
    child ∈ f.children parent ↔ f.parent? child = some parent :=
  ReservationForest.mem_children.trans h.parent?_eq_some.symm

/-- A parent is live. -/
theorem live_of_parent? (h : f.WellLinked) (found : f.parent? child = some parent) :
    f.isLive parent :=
  (h.live _ (mem_links_of_parent? found)).1

/-- Where links have only been taken away, no ancestors have come up. -/
theorem above_of_links (h : f.WellLinked) (links : ∀ l ∈ g.links, l ∈ f.links) {upper lower : Nat}
    (above : g.Above upper lower) : f.Above upper lower :=
  Relation.TransGen.mono (fun _ _ found =>
    h.parent?_eq_some.2 (links _ (mem_links_of_parent? found))) _ _ above

/-- Fewer links make no new cycle. -/
theorem acyclic_of_links (h : f.WellLinked) (links : ∀ l ∈ g.links, l ∈ f.links)
    (acyclic : f.Acyclic) : g.Acyclic :=
  fun key cycle => acyclic key (h.above_of_links links cycle)

/-! ## What keeps links well -/

theorem empty : ReservationForest.empty.WellLinked where
  live := fun _ never => nomatch never
  single := fun _ never => nomatch never

/-- Among fewer links, each of which still has live ends, there is still one parent at most. -/
theorem of_links (h : f.WellLinked) (links : ∀ l ∈ g.links, l ∈ f.links)
    (live : ∀ l ∈ g.links, g.isLive l.1 ∧ g.isLive l.2) : g.WellLinked where
  live := live
  single := fun l hl l' hl' => h.single l (links l hl) l' (links l' hl')

/-- A new node has no link yet. -/
theorem insert (h : f.WellLinked) (node : Reservation) : (f.insert node).WellLinked := by
  refine h.of_links (fun _ => id) fun l hl => ?_
  rw [isLive_insert, isLive_insert, (h.live l hl).1, (h.live l hl).2]
  exact ⟨rfl, rfl⟩

/-- An attachment links live nodes, and the child has had no parent. -/
theorem attach (h : f.WellLinked) (done : f.attach parent child = .ok g) : g.WellLinked := by
  obtain ⟨parent_live, child_live, -, free, rfl⟩ := attach_eq_ok_iff.1 done
  have parentless (l : Nat × Nat) (hl : l ∈ f.links) : l.2 ≠ child := by
    rintro rfl
    cases (h.parent?_eq_some.2 hl).symm.trans free
  constructor
  · intro l hl
    rcases List.mem_append.1 hl with old | last
    · exact h.live l old
    · rw [List.mem_singleton.1 last]
      exact ⟨parent_live, child_live⟩
  · intro l hl l' hl' same
    -- two links to one child: both old, or the new one twice
    rcases List.mem_append.1 hl with old | last <;> rcases List.mem_append.1 hl' with old' | last'
    · exact h.single l old l' old' same
    · rw [List.mem_singleton.1 last'] at same
      exact absurd same (parentless l old)
    · rw [List.mem_singleton.1 last] at same
      exact absurd same.symm (parentless l' old')
    · rw [List.mem_singleton.1 last, List.mem_singleton.1 last']

/-- Detaching drops links. -/
theorem detach (h : f.WellLinked) (key : Nat) : (f.detach key).WellLinked :=
  h.of_links (f.shrinks_detach key).links fun l hl => h.live l ((f.shrinks_detach key).links l hl)

/-- The links at deleted nodes go with these. -/
theorem discard (h : f.WellLinked) (keys : List Nat) : (f.discard keys).WellLinked := by
  refine h.of_links (f.shrinks_discard keys).links fun l hl => ?_
  obtain ⟨old, kept⟩ := List.mem_filter.1 hl
  rw [Bool.and_eq_true] at kept
  have survives {key : Nat} (live : f.isLive key) (stays : !keys.contains key) :
      (f.discard keys).isLive key := by
    obtain ⟨e, he, rfl⟩ := isLive_iff.1 live
    exact isLive_iff.2 ⟨e, List.mem_filter.2 ⟨he, stays⟩, rfl⟩
  exact ⟨survives (h.live l old).1 kept.1, survives (h.live l old).2 kept.2⟩

/-- A removal drops the links of all nodes it takes. -/
theorem remove (h : f.WellLinked) (key : Nat) : (f.remove key).2.WellLinked := by
  unfold ReservationForest.remove
  split
  · exact (h.detach key).discard _
  · exact h

theorem foldl_detach (keys : List Nat) : ∀ {f : ReservationForest}, f.WellLinked →
    (keys.foldl ReservationForest.detach f).WellLinked := by
  induction keys with
  | nil => exact id
  | cons key keys ih => exact fun h => ih (h.detach key)

theorem removeYoung (h : f.WellLinked) (old : List Nat) (key : Nat) :
    (f.removeYoung old key).2.WellLinked := by
  unfold ReservationForest.removeYoung
  split
  · exact (h.foldl_detach _).remove key
  · exact h

theorem removeAllYoung (old keys : List Nat) :
    ∀ {f : ReservationForest}, f.WellLinked → (f.removeAllYoung old keys).2.WellLinked := by
  induction keys with
  | nil => exact id
  | cons key keys ih => exact fun h => ih (h.removeYoung old key)

/-- Truncating is a series of removals, and the shorter journal plays no part. -/
theorem truncate (h : f.WellLinked) (mark : Nat) : (f.truncate mark).2.WellLinked := by
  have rest :=
    h.removeAllYoung (f.journal.drop (f.journal.length - mark))
      (f.journal.take (f.journal.length - mark))
  exact ⟨rest.live, rest.single⟩

end WellLinked

/-! ## Cycles -/

theorem acyclic_empty : empty.Acyclic := by
  intro key cycle
  obtain ⟨_, found, -⟩ := Relation.TransGen.head'_iff.1 cycle
  cases found

/-- A removal adds nothing. -/
theorem shrinks_remove (f : ReservationForest) (key : Nat) : f.Shrinks (f.remove key).2 := by
  unfold remove
  split
  · exact (f.shrinks_detach key).trans (shrinks_discard _ _)
  · exact .refl f

/-- Nor does truncating. -/
theorem links_truncate (f : ReservationForest) (mark : Nat) :
    ∀ l ∈ (f.truncate mark).2.links, l ∈ f.links :=
  (shrinks_removeAllYoung _ _ f).links

/-- By induction on the way down: where a new link is on the way, the last such link is the new
one. -/
theorem above_attach (h : f.WellLinked) (done : f.attach parent child = .ok g) {upper lower : Nat}
    (above : g.Above upper lower) :
    f.Above upper lower ∨ f.AtOrAbove upper parent ∧ f.AtOrAbove child lower := by
  obtain ⟨-, -, -, -, rfl⟩ := attach_eq_ok_iff.1 done
  -- each link is an old one, or the new one
  have step {a b : Nat}
      (found : ReservationForest.parent?
        { f with links := f.links ++ [(parent, child)] } b = some a) :
      f.parent? b = some a ∨ a = parent ∧ b = child := by
    rcases List.mem_append.1 (mem_links_of_parent? found) with old | last
    · exact Or.inl (h.parent?_eq_some.2 old)
    · cases List.mem_singleton.1 last
      exact Or.inr ⟨rfl, rfl⟩
  induction above with
  | single found =>
    rcases step found with old | ⟨rfl, rfl⟩
    · exact Or.inl (.single old)
    · exact Or.inr ⟨.refl, .refl⟩
  | tail _ found ih =>
    rcases step found with old | ⟨rfl, rfl⟩
    · exact ih.imp (fun above => above.tail old) fun ⟨up, down⟩ => ⟨up, down.tail old⟩
    · refine Or.inr ⟨?_, .refl⟩
      rcases ih with above | ⟨up, -⟩
      · exact above.to_reflTransGen
      · exact up

/-- A link closes a cycle just if its lower end was above its upper end. -/
theorem acyclic_attach_iff (h : f.WellLinked) (acyclic : f.Acyclic)
    (done : f.attach parent child = .ok g) :
    g.Acyclic ↔ ¬ f.Above child parent := by
  have links : ∀ l ∈ f.links, l ∈ g.links := by
    obtain ⟨-, -, -, -, rfl⟩ := attach_eq_ok_iff.1 done
    exact fun _ hl => List.mem_append_left _ hl
  constructor
  · intro kept above
    exact kept child (((h.attach done).above_of_links links above).tail (parent?_attach done))
  · intro apart key cycle
    rcases above_attach h done cycle with old | ⟨up, down⟩
    · exact acyclic key old
    · rcases Relation.reflTransGen_iff_eq_or_transGen.1 (down.trans up) with same | above
      · exact (attach_eq_ok_iff.1 done).2.2.1 same
      · exact apart above

end Conference.ReservationForest
