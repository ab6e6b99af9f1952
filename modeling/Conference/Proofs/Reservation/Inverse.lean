import Conference.Proofs.Reservation.Arena

/-!
# Links both ways

In an arena each link is in two cells. Whatever is done to it, the two sides stay inverse to one
another: a cell is listed among the children of another just if it is there and has that one for its
parent, and it is listed once. To delete a node takes the cells that have it on their way up, and
leaves the others as they were, but for the child that the parent of the node has lost.
-/

namespace Conference

namespace ReservationForest

variable {f : ReservationForest} {key : Nat}

/-- The root is a node that is there, if there is one. -/
def RootLive (f : ReservationForest) : Prop := ∀ root, f.root = some root → f.isLive root

namespace RootLive

theorem foldl_detach (keys : List Nat) :
    ∀ {f : ReservationForest}, f.RootLive → (keys.foldl detach f).RootLive := by
  induction keys with
  | nil => exact id
  | cons key keys ih => exact fun rooted => ih (f := ReservationForest.detach _ key) rooted

theorem remove (rooted : f.RootLive) (key : Nat) : (f.remove key).2.RootLive := by
  by_cases live : f.isLive key
  · rw [remove_of_live live]
    intro root chosen
    exact (Option.filter_eq_some_iff.1 chosen).2
  · rw [ReservationForest.remove, if_neg live]
    exact rooted

theorem removeAllYoung (old keys : List Nat) : ∀ {f : ReservationForest}, f.RootLive →
    (f.removeAllYoung old keys).2.RootLive := by
  induction keys with
  | nil => exact id
  | cons key keys ih =>
    intro f rooted
    refine ih (f := (f.removeYoung old key).2) ?_
    unfold removeYoung
    split
    · exact (foldl_detach _ rooted).remove key
    · exact rooted

/-- Only the choice of a root can make a node the root. -/
theorem outcome (rooted : f.RootLive) {op : Operation}
    (chosen : ∀ key, op = .setRoot key → f.isLive key) :
    (Operation.outcome f op).RootLive := by
  cases op with
  | insert node =>
    intro root kept
    show (f.insert node).isLive root = true
    rw [isLive_insert, rooted root kept, Bool.true_or]
  | attach parent child =>
    show ((f.attach parent child).toOption.getD f).RootLive
    cases done : f.attach parent child with
    | error fault => exact rooted
    | ok g =>
      obtain ⟨-, -, -, -, rfl⟩ := attach_eq_ok_iff.1 done
      exact rooted
  -- only the choice of a root can name one that is not there
  | setRoot key =>
    rintro root ⟨⟩
    exact chosen key rfl
  | remove key => exact rooted.remove key
  | truncate mark => exact RootLive.removeAllYoung _ _ rooted

end RootLive

end ReservationForest

namespace Arena

open ReservationForest
open Operation (reached)

variable {a : Arena} {f : ReservationForest}

/-- One node is another one or an ancestor of it. -/
def AtOrAbove (a : Arena) : (upper lower : Nat) → Prop :=
  Relation.ReflTransGen fun parent child => a.parent? child = some parent

/-- Each node that is chosen as the root is there at that time. -/
def RootsLive (ops : List Operation) : Prop :=
  ∀ before key rest a, ops = before ++ .setRoot key :: rest →
    after before = .some a → a.contains key = true

theorem rootLive_reached (ops : List Operation) (chosen : RootsLive ops) :
    (reached ops).RootLive := by
  induction ops using List.reverseRecOn with
  | nil => exact nofun
  | append_singleton ops op ih =>
    have earlier : RootsLive ops := by
      rintro before key rest a rfl there
      exact chosen before key (rest ++ [op]) a (by simp) there
    rw [reached, List.foldl_append]
    refine (ih earlier).outcome fun key same => ?_
    obtain ⟨a, there, shown⟩ := exists_after ops
    rw [← shown.contains]
    exact chosen ops key [] a (by rw [same]) there

theorem Draws.atOrAbove_iff {order : List Nat} (draws : a.Draws f order) (linked : f.WellLinked)
    {upper lower : Nat} :
    a.AtOrAbove upper lower ↔ f.AtOrAbove upper lower := by
  rw [Arena.AtOrAbove, ReservationForest.AtOrAbove, funext (draws.parent? linked)]

/-- A deletion ends. It takes the nodes at or below the given one, and takes that one off the
children of the others. -/
theorem Draws.remove_takes {order : List Nat} (draws : a.Draws f order) (orderly : f.Orderly)
    (key : Nat) :
    ∃ (gone : List Nat) (b : Arena), a.remove key = .some (gone.length, b) ∧ gone.Nodup
      ∧ (∀ lower, lower ∈ gone ↔ a.contains lower = true ∧ a.AtOrAbove key lower)
      ∧ ∀ other : Nat, b.cells[other]?
        = if other ∈ gone then none else a.cells[other]?.map (·.dropChild key) := by
  obtain ⟨b, removed, left, -⟩ := draws.remove orderly key
  obtain ⟨gone, different, mem, count, without⟩ := ReservationForest.remove_takes orderly key
  refine ⟨gone, b, by rw [removed, count], different, fun lower => ?_, fun other => ?_⟩
  · rw [mem, draws.contains, draws.atOrAbove_iff orderly.linked]
  · rw [left.cells, draws.cells]
    split
    · rename_i taken
      have dead : ¬ (f.remove key).2.isLive other :=
        fun stays => (without.isLive_iff.1 stays).2 taken
      rw [get?_eq_none_iff.2 dead, Option.map_none]
    · -- a cell that is kept loses at most the link to the removed child
      rename_i kept
      rw [without.get? kept]
      cases there : f.get? other with
      | none => rfl
      | some node =>
        obtain ⟨parent, children⟩ :=
          links_remove orderly (without.isLive_iff.2 ⟨isLive_of_get? there, kept⟩)
        simp only [Option.map_some, Cell.dropChild, parent, children]

/-- Any operations on an arena come to an end, and leave it with the cells of the forest. Parents
and children are inverse to one another, and no node is listed twice. The root is there if it was
there when it was chosen. An attachment that is a fault changes nothing. A deletion takes the nodes
that have the given one on their way up, each of them once, and leaves the links of the others and
the order of their children as they were, without the node that is deleted. -/
theorem links_stay_inverse (ops : List Operation) :
    ∃ a, after ops = .some a ∧ a.Shows (reached ops)
    ∧ (∀ parent child, child ∈ a.children parent ↔ a.contains child = true
      ∧ a.parent? child = some parent)
    ∧ (∀ key, (a.children key).Nodup)
    ∧ (RootsLive ops → ∀ root, a.root = some root → a.contains root = true)
    ∧ (∀ parent child, (a.attach parent child).1 ≠ none → (a.attach parent child).2 = a)
    ∧ ∀ key, ∃ (gone : List Nat) (b : Arena), a.remove key = .some (gone.length, b) ∧ gone.Nodup
      ∧ (∀ lower, lower ∈ gone ↔ a.contains lower = true ∧ a.AtOrAbove key lower)
      ∧ ∀ other : Nat, b.cells[other]?
        = if other ∈ gone then none else a.cells[other]?.map (·.dropChild key) := by
  obtain ⟨a, there, shown⟩ := exists_after ops
  have orderly := Operation.orderly_reached ops
  have draws := shown.toDraws
  -- each part is read off the forest that the arena shows
  refine ⟨a, there, shown, fun parent child => ?_, fun key => ?_, fun chosen root kept =>
    ?_, fun parent child refused => ?_, draws.remove_takes orderly⟩
  · rw [draws.children orderly.linked, draws.parent? orderly.linked, draws.contains,
      orderly.linked.mem_children, iff_and_self]
    exact fun found => (orderly.linked.live _ (mem_links_of_parent? found)).2
  · rw [draws.children orderly.linked]
    exact orderly.children_nodup key
  · rw [draws.contains]
    exact rootLive_reached ops chosen root (shown.root ▸ kept)
  · cases done : (reached ops).attach parent child with
    | error fault => rw [draws.attach_error orderly.linked done]
    | ok g => exact absurd (draws.attach orderly.linked done).1 refused

/-- Two nodes that are each the child of the other, a third one that one of them cannot be attached
to, and the root. -/
def rounded : List Operation :=
  [.insert (booking "a"), .insert (booking "b"), .insert (booking "c"), .attach 0 1, .attach 1 0,
    .attach 2 0, .setRoot 2]

/-- The cycle does not keep the deletion of one of its nodes from coming to an end. -/
theorem rounded_stays_inverse : RootsLive rounded ∧ ∃ a, after rounded = .some a ∧ a.root = some 2
    ∧ a.contains 2 = true ∧ a.parent? 0 = some 1 ∧ 0 ∈ a.children 1
    ∧ ∃ b, a.remove 0 = .some (2, b) := by
  have chosen : RootsLive rounded := by
    intro before key rest a same there
    -- the root is chosen once, by the last operation
    obtain ⟨rfl, rfl, -⟩ : before = rounded.take 6 ∧ key = 2 ∧ rest = [] := by
      simpa [rounded, List.cons_eq_append_iff] using same
    obtain ⟨a', there', shown⟩ := exists_after (rounded.take 6)
    obtain rfl := Part.some_injective (there.symm.trans there')
    rw [shown.contains]
    decide
  obtain ⟨a, there, shown, inverse, -, root, -, removal⟩ := links_stay_inverse rounded
  have orderly := Operation.orderly_reached rounded
  have kept : a.root = some 2 := shown.root
  have parent : a.parent? 0 = some 1 := shown.parent? orderly.linked 0
  have live : a.contains 0 = true := shown.contains 0
  obtain ⟨gone, b, removed, -⟩ := removal 0
  obtain ⟨b', removed', -⟩ := shown.toDraws.remove orderly 0
  have two : gone.length = 2 := (Prod.mk.inj (Part.some_injective (removed.symm.trans removed'))).1
  exact ⟨chosen, a, there, kept, root chosen 2 kept, parent,
    (inverse 1 0).2 ⟨live, parent⟩, b, two ▸ removed⟩

end Arena

end Conference
