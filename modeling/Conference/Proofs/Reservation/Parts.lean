import Conference.Proofs.Reservation.Nodes

/-!
# Parts of a tree

A tree is put together from parts. While more is built a node that is there stays, and so do its
children, unless it is the node to which the next part is attached. What holds throughout each part
holds of all nodes of the finished tree.
-/

namespace Conference.ReservationForest

variable {f g h : ReservationForest} {parent child key : Nat}
  {node : Reservation} {new : List Entry}

/-- The nodes of the first forest are in the second one and have the same children there, but for
one parent. -/
def Keeps (parent : Nat) (f g : ReservationForest) : Prop :=
  ∀ (key : Nat) (node : Reservation), f.get? key = some node →
    g.get? key = some node ∧ (key ≠ parent → g.children key = f.children key)

theorem Keeps.refl (parent : Nat) (f : ReservationForest) : f.Keeps parent f :=
  fun _ _ found => ⟨found, fun _ => rfl⟩

theorem Keeps.trans (first : f.Keeps parent g) (second : g.Keeps parent h) : f.Keeps parent h := by
  intro key node found
  obtain ⟨there, children⟩ := first key node found
  obtain ⟨there', children'⟩ := second key node there
  exact ⟨there', fun other => (children' other).trans (children other)⟩

theorem InProgress.lt_nextKey (start : f.InProgress) (found : f.get? key = some node) :
    key < f.nextKey := by
  obtain ⟨e, there, rfl⟩ := Option.map_eq_some_iff.1 found
  rw [← eq_of_beq (List.find?_some (p := fun e : Entry => e.key == key) there)]
  exact start.entries e (List.mem_of_find?_eq_some there)

/-- All links that are made while a forest grows lead from new nodes. -/
theorem Grows.children (grows : f.Grows g new) (old : key < f.nextKey) :
    g.children key = f.children key := by
  obtain ⟨made, links, ends⟩ := grows.links
  have none_made : made.filter (·.1 == key) = [] := by
    rw [List.filter_eq_nil_iff]
    intro l hl same
    have fresh := (grows.fresh _ (ends l hl).1).1
    rw [eq_of_beq same] at fresh
    omega
  unfold ReservationForest.children
  rw [links, List.filter_append, none_made, List.append_nil]

theorem Grows.keeps (grows : f.Grows g new) (start : f.InProgress) (parent : Nat) :
    f.Keeps parent g :=
  fun _ _ found => ⟨grows.get? found, fun _ => grows.children (start.lt_nextKey found)⟩

theorem get?_attach (done : f.attach parent child = .ok g) (key : Nat) :
    g.get? key = f.get? key := by
  obtain ⟨-, -, rfl⟩ := attach_eq_ok done
  rfl

theorem keeps_attach (done : f.attach parent child = .ok g) : f.Keeps parent g := by
  intro key node found
  refine ⟨(get?_attach done key).trans found, fun other => ?_⟩
  rw [children_attach done, if_neg (Ne.symm other), List.append_nil]

/-- Two new nodes, the second of which is made a child of the first, are a part of their own. -/
theorem InProgress.attach_pair (start : f.InProgress) {first second : Reservation}
    (done : ((f.insert first).insert second).attach f.nextKey (f.nextKey + 1) = .ok g) :
    g.get? f.nextKey = some first ∧ g.children f.nextKey = [f.nextKey + 1]
      ∧ g.get? (f.nextKey + 1) = some second ∧ g.children (f.nextKey + 1) = [] := by
  have grows : f.Grows (f.insert first) _ := (Grows.refl f).insert first
  -- the second node comes on top of the first, and neither has a link before the attachment
  have middle := start.of_grows grows
  have later : (f.insert first).Grows ((f.insert first).insert second) _ :=
    (Grows.refl _).insert second
  refine ⟨?_, ?_, ?_, ?_⟩
  · rw [get?_attach done]
    exact later.get? (start.get?_insert first)
  · rw [children_attach done, if_pos rfl, children_insert, children_insert, start.children_nextKey]
    rfl
  · rw [get?_attach done]
    exact middle.get?_insert second
  · rw [children_attach done, if_neg (by omega), List.append_nil, children_insert]
    exact middle.children_nextKey

/-! ## All nodes of a tree -/

/-- The node under a key and all nodes below it satisfy a condition. -/
inductive Throughout (f : ReservationForest) (p : Reservation → Prop) : Nat → Prop where
  | node {key : Nat} {node : Reservation} : f.get? key = some node → p node →
    (∀ child ∈ f.children key, f.Throughout p child) → f.Throughout p key

section Throughout

variable {p : Reservation → Prop}

end Throughout

end Conference.ReservationForest
