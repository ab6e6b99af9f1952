import Conference.Proofs.Parallel.Alias
import Conference.Proofs.Parallel.Claims

/-!
# The first option that succeeds

A search tries one option after the other, each in the session that the ones before it have left
behind. An option that fails is undone, so besides reports and snapshots only identifiers and keys
are used up by it. Hence each option comes to what it comes to when it is tried alone from the
start, and the search comes to what the first option comes to that succeeds.
-/

namespace Conference

open Session (FoundAlike KeyAlike)

/-! ## Sessions in which nothing has been made -/

/-- The claims are those of a ledger, and there are no reservations. Some keys have been used up. -/
structure Session.Idle (l : Ledger) (skipped : Nat) (s : Session) : Prop where
  claims : s.ledger.applied.map Allocation.claim = l.applied.map Allocation.claim
  reservations : s.reservations = ReservationForest.empty.shift skipped

/-- On a ground, nothing has been made. -/
structure Session.Blank (G : Ground) (l : Ledger) (skipped : Nat) (read : List ResourceId)
    (s : Session) :
    Prop extends s.Idle l skipped where
  stands : s.Stands G read

namespace Session

variable {slot : Slot} {G : Ground} {l : Ledger} {j k : Nat}
  {read : List ResourceId} {s t : Session}

theorem Idle.of_places (h : s.Idle l 0) (nothing : s.Places none t) : ∃ j, t.Idle l j := by
  have empty : s.reservations = .empty := h.reservations.trans (ReservationForest.shift_zero _)
  have start : s.reservations.InProgress := by
    rw [empty]
    exact ReservationForest.inProgress_empty
  -- nothing has been built, so only the number of keys given out may differ
  obtain ⟨ledger, -, forest⟩ := Builds.eq_of_nil nothing start
  refine ⟨t.reservations.nextKey, ?_, ?_⟩
  · rw [ledger]
    exact h.claims
  · rw [forest, empty]
    simp [ReservationForest.shift, ReservationForest.empty]

namespace Blank

theorem of_subset (h : s.Blank G l k read) {read' : List ResourceId} (subset : read' ⊆ read) :
    s.Blank G l k read' :=
  ⟨h.toIdle, h.stands.of_subset subset⟩

theorem of_quiet (h : s.Blank G l k read) (quiet : s.Quiet t) {read' : List ResourceId}
    (stands : t.Stands G read') : t.Blank G l k read' where
  claims := by
    rw [quiet.ledger]
    exact h.claims
  reservations := quiet.reservations.trans h.reservations
  stands := stands

theorem alike (h : s.Blank G l 0 read) (h' : t.Blank G l k read) :
    s.Alike G (.claims slot k False) read t where
  left := h.stands
  right := h'.stands
  ledger := h'.claims.trans h.claims.symm
  reservations := by
    rw [h'.reservations, h.reservations, ReservationForest.shift_zero]
    rfl
  account := False.elim
  progress := by
    rw [h.reservations, ReservationForest.shift_zero]
    exact ReservationForest.inProgress_empty
  slots := by
    rw [h.reservations]
    exact fun _ mem => nomatch mem

end Blank

/-- What is like a session in which nothing has been made has nothing made in it, either. -/
theorem Idle.blank_of_alike (h : s.Idle l j) (alike : s.Alike G (.claims slot k False) read t) :
    t.Blank G l (j + k) read where
  claims := by
    have same : t.ledger.applied.map Allocation.claim = s.ledger.applied.map Allocation.claim :=
      alike.ledger
    rw [same]
    exact h.claims
  reservations := by
    have same : t.reservations = s.reservations.shift k := alike.reservations
    rw [same, h.reservations]
    simp [ReservationForest.shift, ReservationForest.empty]
  stands := alike.right

end Session

/-! ## Options in turn -/

section Options

variable {γ : Type} {tries : List γ → Action (Option Nat)} {slot : Slot} {G : Ground} {l : Ledger}
  {read : List ResourceId} {reads : γ → List ResourceId}

/-- The options of a list are tried in turn, until one succeeds. -/
structure InTurn (tries : List γ → Action (Option Nat)) : Prop where
  nil : tries [] = pure none
  cons : ∀ c cs, tries (c :: cs) = tries [c] >>= fun found => match found with
    | some key => pure (some key)
    | none => tries cs

/-- Tried from the start, with some snapshots read, the option comes to nothing. -/
def Fails (G : Ground) (l : Ledger) (read : List ResourceId) (a : Action (Option Nat)) : Prop :=
  ∀ s : Session, s.Blank G l 0 read → ∃ s', a s = .ok (none, s')

/-- Tried from the start, the option comes to the same as has been found, but for the keys that have
been used up before. -/
def Finds (slot : Slot) (G : Ground) (l : Ledger) (read : List ResourceId) (a : Action (Option Nat))
    (skipped key : Nat) (t : Session) : Prop :=
  ∀ s : Session, s.Blank G l 0 read →
    ∃ key' s', a s = .ok (some key', s')
      ∧ KeyAlike G (.claims slot skipped False) read key' s' key t

/-- An option goes the same way wherever the numbering of keys has got to. -/
def Action.Settled (slot : Slot) (G : Ground) (reads : List ResourceId)
    (a : Action (Option Nat)) : Prop :=
  ∀ {k : Nat} {read : List ResourceId} {s t : Session}, reads ⊆ read →
    s.Alike G (.claims slot k False) read t →
    a.Pairs (fun _ => False) s a t (FoundAlike G (.claims slot k False) read)

/-- Nothing is left of the option if it fails. -/
def Action.Undone (l : Ledger) (a : Action (Option Nat)) (s : Session) : Prop :=
  a.Ensures s fun found s' => found = none → ∃ j, s'.Idle l j

theorem Action.Settled.fails {a : Action (Option Nat)} {k : Nat} {t t' : Session}
    (settled : a.Settled slot G read) (h : t.Blank G l k read) (run : a t = .ok (none, t')) :
    Fails G l read a := by
  intro s start
  obtain ⟨found, s', ran, same, -⟩ := (settled (List.Subset.refl _) (start.alike h)).exists_left run
  have nothing : found = none := Option.map_eq_none_iff.1 same.symm
  rw [nothing] at ran
  exact ⟨s', ran⟩

theorem Action.Settled.finds {a : Action (Option Nat)} {k key : Nat} {t t' : Session}
    (settled : a.Settled slot G read) (h : t.Blank G l k read) (run : a t = .ok (some key, t')) :
    Finds slot G l read a k key t' := by
  intro s start
  obtain ⟨found, s', ran, same, alike⟩ :=
    (settled (List.Subset.refl _) (start.alike h)).exists_left run
  obtain ⟨key', rfl, shifted⟩ := Option.map_eq_some_iff.1 same.symm
  exact ⟨key', s', ran, shifted.symm, alike⟩

/-- Options tried in turn: either all of them fail, or one is found behind others that fail. By
induction on the options, since a session is as good as blank again after one that fails. -/
theorem InTurn.first (turns : InTurn tries) {start : Session} (blank : start.Blank G l 0 read)
    (cs : List γ) (settled : ∀ c ∈ cs, (tries [c]).Settled slot G (reads c))
    (undone : ∀ c ∈ cs, (tries [c]).Undone l start) (among : ∀ c ∈ cs, reads c ⊆ read) :
    ∀ {k : Nat} {t : Session}, t.Blank G l k read →
      (∃ t', tries cs t = .ok (none, t') ∧ ∀ c ∈ cs, Fails G l (reads c) (tries [c]))
        ∨ ∃ skipped key t' before c after, tries cs t = .ok (some key, t')
        ∧ cs = before ++ c :: after
          ∧ (∀ b ∈ before, Fails G l (reads b) (tries [b]))
          ∧ Finds slot G l (reads c) (tries [c]) skipped key t' := by
  induction cs with
  | nil =>
    intro k t _
    rw [turns.nil]
    exact Or.inl ⟨t, rfl, fun _ mem => nomatch mem⟩
  | cons c cs ih =>
    intro k t h
    have first : (tries [c]).Settled slot G (reads c) := settled c List.mem_cons_self
    have known := h.of_subset (among c List.mem_cons_self)
    rw [turns.cons]
    have paired := first (among c List.mem_cons_self) (blank.alike h)
    rcases paired.with_left (undone c List.mem_cons_self) with
      ⟨found, s', found', t', -, run, idle, same, alike⟩ | ⟨_, never, -, -⟩
    · rw [Action.bind_of_ok run]
      cases found' with
      | some key =>
        exact Or.inr ⟨k, key, t', [], c, cs, rfl, rfl, (fun _ mem => nomatch mem),
          first.finds known run⟩
      | none =>
        -- the option has failed in both sessions, and the left one says that nothing is left of it
        have fails := first.fails known run
        obtain ⟨j, idle⟩ := idle (Option.map_eq_none_iff.1 same.symm)
        rcases ih (fun d mem => settled d (List.mem_cons_of_mem _ mem))
          (fun d mem => undone d (List.mem_cons_of_mem _ mem))
          (fun d mem => among d (List.mem_cons_of_mem _ mem)) (idle.blank_of_alike alike) with
          ⟨u, all, others⟩ | ⟨skipped, key, u, before, d, after, one, split, others, finds⟩
        · refine Or.inl ⟨u, all, fun d mem => ?_⟩
          rcases List.mem_cons.1 mem with rfl | mem
          · exact fails
          · exact others d mem
        · refine Or.inr ⟨skipped, key, u, c :: before, d, after, one, by rw [split]; rfl, ?_, finds⟩
          intro b mem
          rcases List.mem_cons.1 mem with rfl | mem
          · exact fails
          · exact others b mem
    · exact never.elim

end Options

end Conference
