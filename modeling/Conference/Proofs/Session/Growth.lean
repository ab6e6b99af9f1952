import Conference.Proofs.Reservation.Span
import Conference.Proofs.Reservation.Truncation
import Conference.Proofs.Session.Builds

/-!
# Growing sessions

A session that builds reservations grows: new nodes and new allocations come behind the old ones,
and the new allocations are the claims of the new nodes. The trees made hold each new node once.
This is the invariant under which the two ways to undo agree, since a rollback cuts the ledger and
the forest off where they began to grow.
-/

namespace Conference.Session

/-- From `s` to `t` the nodes `new` and the allocations `added` have come, in trees with the keys
`made`. -/
structure Grows (s t : Session) (made : List (List Nat)) (new : List ReservationForest.Entry)
    (added : List Allocation) : Prop where
  forest : s.reservations.Grows t.reservations new
  ledger : t.ledger =
    { s.ledger with applied := s.ledger.applied ++ added, issued := t.ledger.issued }
  issued_le : s.ledger.issued ≤ t.ledger.issued
  claims : added.map Allocation.claim = new.filterMap (·.node.claim?)
  keys : made.flatten.Perm (new.map (·.key))
  spans : ∀ keys ∈ made, t.reservations.Spans keys

/-- Rolling back to where a session began to grow gives back what it was. -/
theorem rollback_of_grows {s t : Session} {made : List (List Nat)}
    {new : List ReservationForest.Entry} {added : List Allocation}
    (start : s.reservations.InProgress) (grows : s.Grows t made new added) :
    (t.rollback s.savepoint).ledger = { s.ledger with issued := t.ledger.issued }
      ∧ (t.rollback s.savepoint).reservations
        = { s.reservations with nextKey := t.reservations.nextKey } := by
  refine ⟨?_, ReservationForest.truncate_of_grows start grows.forest⟩
  show t.ledger.rollback s.ledger.savepoint = _
  rw [grows.ledger, Ledger.rollback, Ledger.savepoint, Ledger.size]
  simp only [List.take_left]

namespace Grows

variable {s t u : Session} {made : List (List Nat)} {new : List ReservationForest.Entry}
  {added : List Allocation}

theorem refl (s : Session) : s.Grows s [] [] [] where
  forest := .refl s.reservations
  ledger := by rw [List.append_nil]
  issued_le := Nat.le_refl _
  claims := rfl
  keys := .refl _
  spans := fun _ h => nomatch h

/-- A quiet step changes neither the forest nor the ledger. -/
theorem quiet (grows : s.Grows t made new added) (quiet : t.Quiet u) :
    s.Grows u made new added where
  forest := by
    rw [quiet.reservations]
    exact grows.forest
  ledger := by
    rw [quiet.ledger]
    exact grows.ledger
  issued_le := by
    rw [quiet.ledger]
    exact grows.issued_le
  claims := grows.claims
  keys := grows.keys
  spans := by
    rw [quiet.reservations]
    exact grows.spans

/-- The keys of all trees made are those of new nodes. -/
theorem mem_new (grows : s.Grows t made new added) {keys : List Nat} {key : Nat}
    (tree : keys ∈ made) (hk : key ∈ keys) : key ∈ new.map (·.key) :=
  grows.keys.mem_iff.1 (List.mem_flatten.2 ⟨keys, tree, hk⟩)

/-- The new entries have ascending keys, so none comes twice. -/
theorem new_nodup (grows : s.Grows t made new added) : (new.map (·.key)).Nodup := by
  refine grows.forest.ascending.imp ?_
  intro a b lt
  exact Nat.ne_of_lt lt

/-- No key occurs twice in the trees made. -/
theorem nodup (grows : s.Grows t made new added) : made.flatten.Nodup :=
  grows.keys.nodup_iff.2 grows.new_nodup

/-- A new node is a tree of its own, and the trees that are there already stay as they are. -/
theorem spans_create (start : s.reservations.InProgress) (grows : s.Grows t made new added)
    (node : Reservation) :
    ∀ keys ∈ made ++ [[t.reservations.nextKey]], (t.create node).2.reservations.Spans keys := by
  have before := start.of_grows grows.forest
  intro keys tree
  rcases List.mem_append.1 tree with old | this
  · -- the new key is not given out yet, so it is in none of the trees
    refine (grows.spans keys old).insert before node fun hk => ?_
    exact Nat.lt_irrefl _ (grows.forest.fresh _ (grows.mem_new old hk)).2
  · rw [List.mem_singleton.1 this]
    exact ReservationForest.spans_singleton_insert before node

/-- A node is added with the next key, as a tree of its own. If it has a claim, that one comes
behind the claims in force. -/
theorem create (start : s.reservations.InProgress) (grows : s.Grows t made new added)
    (node : Reservation) :
    ∃ added', s.Grows (t.create node).2 (made ++ [[t.reservations.nextKey]])
      (new ++ [⟨t.reservations.nextKey, node⟩]) added' := by
  have forest := grows.forest.insert node
  have keys : (made ++ [[t.reservations.nextKey]]).flatten.Perm
      ((new ++ [(⟨t.reservations.nextKey, node⟩ : ReservationForest.Entry)]).map (·.key)) := by
    rw [List.flatten_append, List.map_append]
    exact grows.keys.append (.refl _)
  have spans := grows.spans_create start node
  have old := grows.ledger
  rw [Ledger.mk.injEq] at old
  -- only the ledger depends on whether the node claims anything
  cases claim : node.claim? with
  | none =>
    have same := ledger_create_of_none t claim
    refine ⟨added, forest, ?_, ?_, ?_, keys, spans⟩
    · rw [same]
      exact grows.ledger
    · rw [same]
      exact grows.issued_le
    · rw [List.filterMap_append, grows.claims]
      simp [claim]
  | some c =>
    have applied := ledger_create_of_some t claim
    refine ⟨added ++ [⟨t.ledger.nextId, c.1, c.2.1, c.2.2⟩], forest, ?_, ?_, ?_, keys, spans⟩
    · rw [applied, Ledger.mk.injEq, Ledger.applied_apply, old.2.2.1, List.append_assoc]
      exact ⟨old.1, old.2.1, rfl, rfl⟩
    · rw [applied]
      exact Nat.le_succ_of_le grows.issued_le
    · rw [List.map_append, List.filterMap_append, grows.claims]
      simp [claim, Allocation.claim]

/-- Two of the trees become one: the second goes under the root of the first. -/
theorem attach {parent child : Nat} {ps cs : List Nat} {rest : List (List Nat)}
    (grows : s.Grows t ((parent :: ps) :: (child :: cs) :: rest) new added)
    (done : t.attach parent child = .ok u) :
    s.Grows u ((parent :: ps ++ child :: cs) :: rest) new added := by
  obtain ⟨f, attached, rfl⟩ := attach_eq_ok done
  have hp : parent ∈ new.map (·.key) := grows.mem_new List.mem_cons_self List.mem_cons_self
  have hc : child ∈ new.map (·.key) :=
    grows.mem_new (List.mem_cons_of_mem _ List.mem_cons_self) List.mem_cons_self
  -- the parent occurs only at the head of its own tree
  have once := grows.nodup
  rw [List.flatten_cons, List.cons_append, List.nodup_cons, List.mem_append, not_or,
    List.flatten_cons, List.mem_append, not_or] at once
  obtain ⟨⟨notps, notcs, notrest⟩, -⟩ := once
  refine ⟨grows.forest.attach hp hc attached, grows.ledger, grows.issued_le, grows.claims, ?_, ?_⟩
  · have same : ((parent :: ps ++ child :: cs) :: rest).flatten
        = ((parent :: ps) :: (child :: cs) :: rest).flatten := by
      rw [List.flatten_cons, List.flatten_cons, List.flatten_cons, List.append_assoc]
    rw [same]
    exact grows.keys
  · intro keys tree
    have spans (keys : List Nat) (h : keys ∈ (parent :: ps) :: (child :: cs) :: rest) :=
      grows.spans keys h
    rcases List.mem_cons.1 tree with rfl | old
    · exact ReservationForest.Spans.adopt attached (spans _ List.mem_cons_self)
        (spans _ (List.mem_cons_of_mem _ List.mem_cons_self)) notps notcs
    · refine (spans keys (List.mem_cons_of_mem _ (List.mem_cons_of_mem _ old))).attach attached ?_
      intro hk
      exact notrest (List.mem_flatten.2 ⟨keys, old, hk⟩)

/-- In which order the trees are listed does not matter. -/
theorem reorder {made' : List (List Nat)} (grows : s.Grows t made new added)
    (perm : made.Perm made') : s.Grows t made' new added where
  forest := grows.forest
  ledger := grows.ledger
  issued_le := grows.issued_le
  claims := grows.claims
  keys := perm.flatten.symm.trans grows.keys
  spans := fun keys tree => grows.spans keys (perm.mem_iff.2 tree)

/-- Going back to a savepoint takes off what has come since. Keys and identifiers that were given
out in between are not given out again. -/
theorem rollback {made' : List (List Nat)} {new' : List ReservationForest.Entry}
    {added' : List Allocation} (start : s.reservations.InProgress)
    (grows : s.Grows t made new added) (inner : t.Grows u made' new' added') :
    s.Grows (u.rollback t.savepoint) made new added := by
  -- all that stays of the inner growth are the keys and numbers it has used up
  obtain ⟨ledger, forest⟩ := rollback_of_grows (start.of_grows grows.forest) inner
  have issued : (u.rollback t.savepoint).ledger.issued = u.ledger.issued := rfl
  refine ⟨?_, ?_, ?_, grows.claims, grows.keys, ?_⟩
  · rw [forest]
    exact grows.forest.skipKeys inner.forest.nextKey_le
  · rw [issued, ledger, grows.ledger]
  · rw [issued]
    exact Nat.le_trans grows.issued_le inner.issued_le
  · intro keys tree
    rw [forest]
    refine ReservationForest.Spans.congr ?_ ?_ (grows.spans keys tree)
    · exact fun _ => rfl
    · exact fun _ => rfl

end Grows

/-- The invariant of allocation, by induction on what it does: what is built is what has grown. -/
theorem Builds.grows {s t : Session} {made : List (List Nat)} (h : s.Builds t made) :
    s.reservations.InProgress → ∃ new added, s.Grows t made new added := by
  induction h with
  | start s => exact fun _ => ⟨[], [], .refl s⟩
  | quiet _ quiet ih =>
    intro start
    obtain ⟨new, added, grows⟩ := ih start
    exact ⟨new, added, grows.quiet quiet⟩
  | create node _ _ ih =>
    intro start
    obtain ⟨new, added, grows⟩ := ih start
    exact ⟨_, grows.create start node⟩
  | attach _ attached ih =>
    intro start
    obtain ⟨new, added, grows⟩ := ih start
    exact ⟨new, added, grows.attach attached⟩
  | reorder _ perm ih =>
    intro start
    obtain ⟨new, added, grows⟩ := ih start
    exact ⟨new, added, grows.reorder perm⟩
  | rollback _ _ ih ih' =>
    intro start
    obtain ⟨new, added, grows⟩ := ih start
    -- what is rolled back has grown from a forest that is in progress itself
    obtain ⟨new', added', inner⟩ := ih' (start.of_grows grows.forest)
    exact ⟨new, added, grows.rollback start inner⟩

/-- Where nothing has been built, only identifiers and keys may have been given out. -/
theorem Builds.eq_of_nil {s t : Session} (h : s.Builds t []) (start : s.reservations.InProgress) :
    t.ledger = { s.ledger with issued := t.ledger.issued } ∧ s.ledger.issued ≤ t.ledger.issued
      ∧ t.reservations = { s.reservations with nextKey := t.reservations.nextKey } := by
  obtain ⟨new, added, grows⟩ := h.grows start
  have no_node : new = [] := by
    have none := grows.keys.length_eq
    rw [List.flatten_nil, List.length_nil, List.length_map] at none
    exact List.length_eq_zero_iff.1 none.symm
  subst no_node
  -- allocations only come with nodes that claim them
  have no_allocation : added = [] := by
    have none := grows.claims
    rw [List.filterMap_nil, List.map_eq_nil_iff] at none
    exact none
  subst no_allocation
  refine ⟨?_, grows.issued_le, grows.forest.eq_of_nil⟩
  have ledger := grows.ledger
  rw [List.append_nil] at ledger
  exact ledger

/-- What holds of the allocations in force, and of any further one that a session admits, holds of
those in the end. A rollback goes back to allocations that were in force before. -/
theorem Builds.applied_induction {s t : Session} {made : List (List Nat)} (h : s.Builds t made)
    (start : s.reservations.InProgress) (current : s.Current) {P : List Allocation → Prop}
    (step : ∀ (u : Session) (a : Allocation), s.Agrees u → u.Admits a.resource a.slot a.usage →
      P u.ledger.applied → P (u.ledger.applied ++ [a]))
    (init : P s.ledger.applied) : P t.ledger.applied := by
  induction h with
  | start => exact init
  | quiet _ quiet ih =>
    rw [quiet.ledger]
    exact ih start current step init
  | @create s t made node built admitted ih =>
    have before := ih start current step init
    cases claim : node.claim? with
    | none =>
      rw [ledger_create_of_none t claim]
      exact before
    | some c =>
      rw [ledger_create_of_some t claim]
      have admits := admitted c.1 c.2.1 c.2.2 claim current
      exact step t ⟨t.ledger.nextId, c.1, c.2.1, c.2.2⟩ built.agrees admits before
  | attach _ attached ih =>
    obtain ⟨f, -, rfl⟩ := attach_eq_ok attached
    exact ih start current step init
  | reorder _ _ ih => exact ih start current step init
  | rollback built inner ih _ =>
    -- the inner part only grew, so cutting it off leaves what the outer part has built
    obtain ⟨new, added, grows⟩ := built.grows start
    have middle := start.of_grows grows.forest
    obtain ⟨new', added', grows'⟩ := inner.grows middle
    rw [(rollback_of_grows middle grows').1]
    exact ih start current step init

/-! ## Trees can always be linked -/

/-- The root of a tree that has been made has no parent yet. -/
theorem Builds.parent?_root {s t : Session} {made : List (List Nat)} (h : s.Builds t made)
    (start : s.reservations.InProgress) :
    ∀ keys ∈ made, ∀ key, keys.head? = some key → t.reservations.parent? key = none := by
  induction h with
  | start => exact fun _ mem => nomatch mem
  | quiet _ quiet ih =>
    rw [quiet.reservations]
    exact ih start
  | @create s t made node built _ ih =>
    obtain ⟨new, added, grows⟩ := built.grows start
    intro keys mem key head
    have unlinked : (t.create node).2.reservations.parent? key = t.reservations.parent? key := rfl
    rw [unlinked]
    rcases List.mem_append.1 mem with old | this
    · exact ih start keys old key head
    · -- no link mentions a key that has not been given out
      rw [List.mem_singleton.1 this] at head
      cases head
      have below := (start.of_grows grows.forest).links
      rw [ReservationForest.parent?, Option.map_eq_none_iff, List.find?_eq_none]
      intro l hl same
      have := (below l hl).2
      rw [eq_of_beq same] at this
      exact Nat.lt_irrefl _ this
  | @attach s t u parent child ps cs rest built attached ih =>
    obtain ⟨new, added, grows⟩ := built.grows start
    obtain ⟨f, linked, rfl⟩ := attach_eq_ok attached
    obtain ⟨-, -, rfl⟩ := ReservationForest.attach_eq_ok linked
    have once := grows.nodup
    have before := ih start
    have unlinked {key : Nat} (free : t.reservations.parent? key = none) (apart : child ≠ key) :
        (t.reservations.links ++ [(parent, child)]).find? (·.2 == key) = none := by
      rw [ReservationForest.parent?, Option.map_eq_none_iff] at free
      rw [List.find?_append, free]
      simp [apart]
    intro keys mem key head
    rw [ReservationForest.parent?, Option.map_eq_none_iff]
    rw [List.flatten_cons, List.flatten_cons, List.cons_append, List.cons_append, List.nodup_cons,
      List.nodup_append] at once
    rcases List.mem_cons.1 mem with rfl | old
    · cases head
      refine unlinked (before _ List.mem_cons_self _ rfl) fun same => once.1 ?_
      rw [← same]
      simp
    · refine unlinked ?_ fun same => ?_
      · exact before keys (List.mem_cons_of_mem _ (List.mem_cons_of_mem _ old)) key head
      · have among : key ∈ rest.flatten :=
          List.mem_flatten.2 ⟨keys, old, List.mem_of_mem_head? head⟩
        have inner := (List.nodup_cons.1 once.2.2.1).1
        rw [same] at inner
        exact inner (List.mem_append_right _ among)
  | reorder _ perm ih => exact fun keys mem => ih start keys (perm.mem_iff.2 mem)
  | @rollback s t u made made' built inner ih _ =>
    obtain ⟨new, added, grows⟩ := built.grows start
    have middle := start.of_grows grows.forest
    obtain ⟨new', added', grows'⟩ := inner.grows middle
    rw [(rollback_of_grows middle grows').2]
    exact ih start

/-- Linking two trees that have been made meets no fault. -/
theorem Builds.exists_attach {s t : Session} {parent child : Nat} {ps cs : List Nat}
    {rest : List (List Nat)} (h : s.Builds t ((parent :: ps) :: (child :: cs) :: rest))
    (start : s.reservations.InProgress) : ∃ u, t.attach parent child = .ok u := by
  obtain ⟨new, added, grows⟩ := h.grows start
  have second : child :: cs ∈ (parent :: ps) :: (child :: cs) :: rest :=
    List.mem_cons_of_mem _ List.mem_cons_self
  have live {key : Nat} (mem : key ∈ new.map (·.key)) : t.reservations.isLive key := by
    obtain ⟨e, he, rfl⟩ := List.mem_map.1 mem
    exact ReservationForest.isLive_iff.2 ⟨e, grows.forest.entries ▸ List.mem_append_right _ he, rfl⟩
  have parent_live := live (grows.mem_new List.mem_cons_self List.mem_cons_self)
  have child_live := live (grows.mem_new second List.mem_cons_self)
  have free := h.parent?_root start _ second child rfl
  -- each key stands in one tree only
  have apart : parent ≠ child := by
    have once := grows.nodup
    rw [List.flatten_cons, List.cons_append, List.nodup_cons] at once
    rintro rfl
    exact once.1 (by simp)
  refine ⟨{ t with reservations :=
    { t.reservations with links := t.reservations.links ++ [(parent, child)] } }, ?_⟩
  unfold Session.attach ReservationForest.attach
  rw [parent_live, child_live, free]
  simp [apart, Except.map]

end Conference.Session
