import Conference.Proofs.Reservation.Growth

/-!
# Subtrees as lists of keys

A list of keys *spans* a subtree when it is the pre-order of the subtree of its head, whatever bound
on the levels its length leaves room for. Adding nodes elsewhere keeps a span, and attaching one
root to another appends the span of the child to that of the parent.
-/

namespace Conference.ReservationForest

/-- The keys are those of the subtree of the first one, in pre-order. -/
def Spans (f : ReservationForest) : List Nat → Prop
  | [] => False
  | key :: keys =>
    ∀ levels, (key :: keys).length ≤ levels → f.subtreeWithin levels key = key :: keys

/-- Subtrees depend only on which nodes are live and what their children are. -/
theorem subtreeWithin_congr {f g : ReservationForest} (live : ∀ k, f.isLive k = g.isLive k)
    (children : ∀ k, f.children k = g.children k) (levels : Nat) :
    ∀ key, f.subtreeWithin levels key = g.subtreeWithin levels key := by
  induction levels with
  | zero => intro key; rfl
  | succ levels ih =>
    intro key
    rw [subtreeWithin, subtreeWithin, live, children, funext ih]

theorem Spans.congr {f g : ReservationForest} (live : ∀ k, f.isLive k = g.isLive k)
    (children : ∀ k, f.children k = g.children k) {keys : List Nat} (h : f.Spans keys) :
    g.Spans keys := by
  cases keys with
  | nil => exact h
  | cons key keys =>
    intro levels enough
    rw [← subtreeWithin_congr live children]
    exact h levels enough

/-! ## Adding a node -/

theorem subtreeWithin_insert {f : ReservationForest} (start : f.InProgress) (node : Reservation)
    (levels : Nat) :
    ∀ {key}, key ≠ f.nextKey → (f.insert node).subtreeWithin levels key
      = f.subtreeWithin levels key := by
  induction levels with
  | zero => intro key _; rfl
  | succ levels ih =>
    intro key other
    have live : (f.insert node).isLive key = f.isLive key := by
      rw [isLive_insert]
      simp [Ne.symm other]
    rw [subtreeWithin, subtreeWithin, live, children_insert]
    -- children are keys of before, so the new node is below none of them
    have below : (f.children key).flatMap ((f.insert node).subtreeWithin levels)
        = (f.children key).flatMap (f.subtreeWithin levels) := by
      rw [List.flatMap_def, List.flatMap_def]
      congr 1
      refine List.map_congr_left fun child hchild => ih ?_
      have := (start.links _ (mem_children.1 hchild)).2
      omega
    rw [below]

theorem Spans.insert {f : ReservationForest} (start : f.InProgress) (node : Reservation)
    {keys : List Nat} (h : f.Spans keys) (old : f.nextKey ∉ keys) : (f.insert node).Spans keys := by
  cases keys with
  | nil => exact h
  | cons key keys =>
    intro levels enough
    have other : key ≠ f.nextKey := fun same => old (same ▸ List.mem_cons_self)
    rw [subtreeWithin_insert start node levels other]
    exact h levels enough

/-- A new node spans just itself. -/
theorem spans_singleton_insert {f : ReservationForest} (start : f.InProgress) (node : Reservation) :
    (f.insert node).Spans [f.nextKey] := by
  intro levels enough
  obtain ⟨n, rfl⟩ := Nat.exists_eq_succ_of_ne_zero (Nat.ne_of_gt enough)
  have childless : f.children f.nextKey = [] := by
    rw [List.eq_nil_iff_forall_not_mem]
    intro child hchild
    have := (start.links _ (mem_children.1 hchild)).1
    omega
  have live : (f.insert node).isLive f.nextKey := by
    rw [isLive_insert]
    simp
  rw [subtreeWithin, if_pos live, children_insert, childless, List.flatMap_nil]

/-! ## Attaching a tree to another -/

section Attach

variable {f g : ReservationForest} {parent child : Nat}

theorem isLive_attach (h : f.attach parent child = .ok g) (key : Nat) :
    g.isLive key = f.isLive key := by
  obtain ⟨-, -, rfl⟩ := attach_eq_ok h
  rfl

theorem subtreeWithin_attach (h : f.attach parent child = .ok g) (levels : Nat) :
    ∀ {key}, parent ∉ f.subtreeWithin levels key →
      g.subtreeWithin levels key = f.subtreeWithin levels key := by
  induction levels with
  | zero => intro key _; rfl
  | succ levels ih =>
    intro key out
    rw [subtreeWithin] at out
    rw [subtreeWithin, subtreeWithin, isLive_attach h, children_attach h]
    by_cases live : f.isLive key
    · rw [if_pos live] at out
      -- the parent is not the key and not below it, so no list of children on the way has changed
      have other : parent ≠ key := fun same => out (same ▸ List.mem_cons_self)
      rw [if_pos live, if_pos live, if_neg other, List.append_nil, List.flatMap_def,
        List.flatMap_def]
      congr 2
      refine List.map_congr_left fun k hk => ih fun deep => out ?_
      exact List.mem_cons_of_mem _ (List.mem_flatMap.2 ⟨k, hk, deep⟩)
    · rw [if_neg live, if_neg live]

theorem Spans.attach (h : f.attach parent child = .ok g) {keys : List Nat} (spans : f.Spans keys)
    (out : parent ∉ keys) : g.Spans keys := by
  cases keys with
  | nil => exact spans
  | cons key keys =>
    intro levels enough
    have whole := spans levels enough
    rw [subtreeWithin_attach h levels (whole ▸ out), whole]

/-- The tree of the child comes behind all that the parent has had before. -/
theorem Spans.adopt (h : f.attach parent child = .ok g) {ps cs : List Nat}
    (hp : f.Spans (parent :: ps)) (hc : f.Spans (child :: cs)) (once : parent ∉ ps)
    (apart : parent ∉ child :: cs) : g.Spans (parent :: ps ++ child :: cs) := by
  intro levels room
  have enough : ps.length + 1 + (cs.length + 1) ≤ levels := by
    rw [← List.length_cons, ← List.length_cons, ← List.length_append]
    exact room
  obtain ⟨n, rfl⟩ : ∃ n, levels = n + 1 := ⟨levels - 1, by omega⟩
  have whole := hp (n + 1) (by rw [List.length_cons]; omega)
  rw [subtreeWithin] at whole
  split at whole
  · rename_i live
    have below : (f.children parent).flatMap (f.subtreeWithin n) = ps := (List.cons.inj whole).2
    -- the new link is below no child that the parent has had
    have kept : (f.children parent).flatMap (g.subtreeWithin n) = ps := by
      rw [← below, List.flatMap_def, List.flatMap_def]
      congr 1
      refine List.map_congr_left fun k hk => subtreeWithin_attach h n fun deep => once ?_
      rw [← below]
      exact List.mem_flatMap.2 ⟨k, hk, deep⟩
    have joined : g.subtreeWithin n child = child :: cs :=
      Spans.attach h hc apart n (by rw [List.length_cons]; omega)
    rw [subtreeWithin, isLive_attach h, if_pos live, children_attach h, if_pos rfl,
      List.flatMap_append, kept, List.flatMap_singleton, joined]
    rfl
  · cases whole

end Attach

end Conference.ReservationForest
