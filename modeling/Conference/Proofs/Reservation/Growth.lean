import Conference.Reservation.Forest

/-!
# Growing forests

While an allocation runs, its forest only grows: nodes with new keys are added, and links among the
new nodes. Truncating to a mark takes such growth back completely. What makes this work is that no
link leads from a new node to an old one, so that deleting a new node with its subtree cannot reach
an old one.
-/

namespace Conference.ReservationForest

/-- All keys that the forest mentions have been given out, and no root has been chosen yet. -/
structure InProgress (f : ReservationForest) : Prop where
  entries : ∀ e ∈ f.entries, e.key < f.nextKey
  links : ∀ l ∈ f.links, l.1 < f.nextKey ∧ l.2 < f.nextKey
  journal : ∀ key ∈ f.journal, key < f.nextKey
  root : f.root = none

/-- `g` is `f` with the nodes `new` behind those of `f`, and with links among them. -/
structure Grows (f g : ReservationForest) (new : List Entry) : Prop where
  entries : g.entries = f.entries ++ new
  links : ∃ made, g.links = f.links ++ made ∧
    ∀ l ∈ made, l.1 ∈ new.map (·.key) ∧ l.2 ∈ new.map (·.key)
  journal : g.journal = (new.map (·.key)).reverse ++ f.journal
  root : g.root = f.root
  ascending : (new.map (·.key)).Pairwise (· < ·)
  fresh : ∀ key ∈ new.map (·.key), f.nextKey ≤ key ∧ key < g.nextKey
  nextKey_le : f.nextKey ≤ g.nextKey

theorem inProgress_empty : empty.InProgress where
  entries := fun _ h => nomatch h
  links := fun _ h => nomatch h
  journal := fun _ h => nomatch h
  root := rfl

theorem isLive_iff {f : ReservationForest} {key : Nat} :
    f.isLive key ↔ ∃ e ∈ f.entries, e.key = key := by
  simp [isLive, List.any_eq_true]

theorem mem_children {f : ReservationForest} {key child : Nat} :
    child ∈ f.children key ↔ (key, child) ∈ f.links := by
  simp [children]

/-- What is linked by a successful attachment. -/
theorem attach_eq_ok {f g : ReservationForest} {parent child : Nat}
    (h : f.attach parent child = .ok g) :
    f.isLive parent ∧ f.isLive child ∧ g = { f with links := f.links ++ [(parent, child)] } := by
  unfold attach at h
  split at h
  · cases h
  · rename_i live
    split at h
    · cases h
    · split at h
      · cases h
      · cases h
        simp only [Bool.or_eq_true, Bool.not_eq_true', not_or, Bool.not_eq_false] at live
        exact ⟨live.1, live.2, rfl⟩

namespace InProgress

variable {f g : ReservationForest}

theorem of_grows (h : f.InProgress) {new : List Entry} (grows : f.Grows g new) : g.InProgress where
  entries := by
    intro e he
    rw [grows.entries, List.mem_append] at he
    -- old keys are below the counter of before, young ones below the present one
    rcases he with old | young
    · exact Nat.lt_of_lt_of_le (h.entries e old) grows.nextKey_le
    · exact (grows.fresh e.key (List.mem_map_of_mem young)).2
  links := by
    intro l hl
    obtain ⟨made, links, ends⟩ := grows.links
    rw [links, List.mem_append] at hl
    rcases hl with old | young
    · have below := h.links l old
      exact ⟨Nat.lt_of_lt_of_le below.1 grows.nextKey_le,
        Nat.lt_of_lt_of_le below.2 grows.nextKey_le⟩
    · exact ⟨(grows.fresh _ (ends l young).1).2, (grows.fresh _ (ends l young).2).2⟩
  journal := by
    intro key hk
    rw [grows.journal, List.mem_append, List.mem_reverse] at hk
    rcases hk with young | old
    · exact (grows.fresh key young).2
    · exact Nat.lt_of_lt_of_le (h.journal key old) grows.nextKey_le
  root := grows.root.trans h.root

theorem attach (h : f.InProgress) {parent child : Nat} (done : f.attach parent child = .ok g) :
    g.InProgress := by
  obtain ⟨parent_live, child_live, rfl⟩ := attach_eq_ok done
  have given_out {key : Nat} (live : f.isLive key) : key < f.nextKey := by
    obtain ⟨e, he, rfl⟩ := isLive_iff.1 live
    exact h.entries e he
  refine ⟨h.entries, fun l hl => ?_, h.journal, h.root⟩
  rcases List.mem_append.1 hl with old | last
  · exact h.links l old
  · rw [List.mem_singleton.1 last]
    exact ⟨given_out parent_live, given_out child_live⟩

/-- A node is found under the key that it has just been given. -/
theorem get?_insert (h : f.InProgress) (node : Reservation) :
    (f.insert node).get? f.nextKey = some node := by
  have unused : f.entries.find? (·.key == f.nextKey) = none := by
    rw [List.find?_eq_none]
    intro e he same
    exact Nat.ne_of_lt (h.entries e he) (eq_of_beq same)
  rw [get?, insert, List.find?_append, unused]
  simp

/-- The next key belongs to no node, so it has no children. -/
theorem children_nextKey (h : f.InProgress) : f.children f.nextKey = [] := by
  rw [children, List.map_eq_nil_iff, List.filter_eq_nil_iff]
  intro l hl same
  exact Nat.ne_of_lt (h.links l hl).1 (eq_of_beq same)

/-- Of two nodes that have just been made, the second can be made a child of the first. -/
theorem exists_attach (start : f.InProgress) (first second : Reservation) :
    ∃ g, ((f.insert first).insert second).attach f.nextKey (f.insert first).nextKey = .ok g := by
  have live : ((f.insert first).insert second).isLive f.nextKey
      ∧ ((f.insert first).insert second).isLive (f.insert first).nextKey := by
    rw [isLive_insert, isLive_insert, isLive_insert]
    simp
  -- the second node is new, so no link leads to it yet
  have free : ((f.insert first).insert second).parent? (f.insert first).nextKey = none := by
    rw [parent?, Option.map_eq_none_iff, List.find?_eq_none]
    intro l hl same
    have below : l.2 < f.nextKey := (start.links l hl).2
    have above : l.2 = f.nextKey + 1 := eq_of_beq same
    omega
  have apart : f.nextKey ≠ (f.insert first).nextKey := Nat.ne_of_lt (Nat.lt_succ_self _)
  unfold ReservationForest.attach
  rw [live.1, live.2, free, if_neg (by simp), if_neg apart]
  exact ⟨_, rfl⟩

end InProgress

namespace Grows

variable {f g h : ReservationForest} {new : List Entry}

theorem refl (f : ReservationForest) : f.Grows f [] where
  entries := (List.append_nil _).symm
  links := ⟨[], (List.append_nil _).symm, fun _ h => nomatch h⟩
  journal := rfl
  root := rfl
  ascending := List.Pairwise.nil
  fresh := fun _ h => nomatch h
  nextKey_le := Nat.le_refl _

/-- What is found in a forest stays there while it grows. -/
theorem get? (grows : f.Grows g new) {key : Nat} {node : Reservation}
    (found : f.get? key = some node) :
    g.get? key = some node := by
  unfold ReservationForest.get? at found ⊢
  obtain ⟨e, there, named⟩ := Option.map_eq_some_iff.1 found
  rw [grows.entries, List.find?_append, there, Option.some_or, Option.map_some, named]

theorem insert (grows : f.Grows g new) (node : Reservation) :
    f.Grows (g.insert node) (new ++ [⟨g.nextKey, node⟩]) where
  entries := by
    show g.entries ++ [⟨g.nextKey, node⟩] = _
    rw [grows.entries, List.append_assoc]
  links := by
    obtain ⟨made, links, ends⟩ := grows.links
    refine ⟨made, links, fun l hl => ?_⟩
    rw [List.map_append]
    exact ⟨List.mem_append_left _ (ends l hl).1, List.mem_append_left _ (ends l hl).2⟩
  journal := by
    show g.nextKey :: g.journal = _
    rw [grows.journal, List.map_append, List.reverse_append]
    rfl
  root := grows.root
  ascending := by
    rw [List.map_append, List.pairwise_append]
    refine ⟨grows.ascending, List.pairwise_singleton _ _, ?_⟩
    intro key hk last hl
    rw [List.map_singleton, List.mem_singleton] at hl
    rw [hl]
    exact (grows.fresh key hk).2
  fresh := by
    intro key hk
    show _ ∧ key < g.nextKey + 1
    rw [List.map_append, List.mem_append, List.map_singleton, List.mem_singleton] at hk
    -- keys of before are below the counter, and the new key is the counter
    rcases hk with old | rfl
    · have below := grows.fresh key old
      omega
    · exact ⟨grows.nextKey_le, Nat.lt_succ_self _⟩
  nextKey_le := Nat.le_succ_of_le grows.nextKey_le

/-- Only links among the new nodes are made while a forest grows. -/
theorem attach (grows : f.Grows g new) {parent child : Nat} (hp : parent ∈ new.map (·.key))
    (hc : child ∈ new.map (·.key)) (done : g.attach parent child = .ok h) : f.Grows h new := by
  obtain ⟨-, -, rfl⟩ := attach_eq_ok done
  obtain ⟨made, links, ends⟩ := grows.links
  have made' : g.links ++ [(parent, child)] = f.links ++ (made ++ [(parent, child)]) := by
    rw [links, List.append_assoc]
  exact
    { grows with
      links := by
        refine ⟨made ++ [(parent, child)], made', fun l hl => ?_⟩
        rcases List.mem_append.1 hl with old | last
        · exact ends l old
        · rw [List.mem_singleton.1 last]
          exact ⟨hp, hc⟩ }

theorem skipKeys (grows : f.Grows g new) {n : Nat} (le : g.nextKey ≤ n) :
    f.Grows { g with nextKey := n } new :=
  { grows with
    fresh := fun key hk =>
      ⟨(grows.fresh key hk).1, Nat.lt_of_lt_of_le (grows.fresh key hk).2 le⟩
    nextKey_le := Nat.le_trans grows.nextKey_le le }

/-- What has not grown is as before, but for the keys given out. -/
theorem eq_of_nil (grows : f.Grows g []) : g = { f with nextKey := g.nextKey } := by
  obtain ⟨made, links, ends⟩ := grows.links
  -- a link that was made would have a new node at its end
  have none_made : made = [] := by
    rw [List.eq_nil_iff_forall_not_mem]
    intro l hl
    cases (ends l hl).1
  have entries := grows.entries
  rw [none_made, List.append_nil] at links
  rw [List.append_nil] at entries
  show ReservationForest.mk g.entries g.links g.journal g.nextKey g.root = _
  rw [ReservationForest.mk.injEq]
  exact ⟨entries, links, grows.journal, rfl, grows.root⟩

end Grows

end Conference.ReservationForest
