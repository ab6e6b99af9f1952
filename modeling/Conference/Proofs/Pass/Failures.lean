import Conference.Proofs.Scheduler.Standing

/-!
# Failed requests leave no trace in a pass

A request that fails has read snapshots and has used up keys and identifiers, and that is all. The
states of a pass with it and of one without it stand on the same ground and hold the same claims,
and no later request can tell two such states apart.
-/

namespace Conference.Pass

/-- What is left of a list when only the elements at some places are kept. -/
def kept {α : Type} (keep : Nat → Bool) (xs : List α) : List α :=
  (xs.zipIdx.filter fun p => keep p.2).map (·.1)

theorem kept_cons {α : Type} (keep : Nat → Bool) (x : α) (xs : List α) :
    kept keep (x :: xs)
      = if keep 0 then x :: kept (fun place => keep (place + 1)) xs
        else kept (fun place => keep (place + 1)) xs := by
  have shifted : (xs.zipIdx 1).filter (fun p => keep p.2)
      = ((xs.zipIdx.filter fun p => keep (p.2 + 1)).map fun p => (p.1, p.2 + 1)) := by
    rw [List.zipIdx_succ, List.filter_map]
    rfl
  unfold kept
  rw [List.zipIdx_cons, Nat.zero_add, List.filter_cons, shifted]
  split <;> simp [Function.comp_def]

/-- Requests find the same ground and the same claims in both states. -/
def Even (G : Ground) (a b : State) : Prop :=
  Scheduler.Even G a.scheduler a.ledger b.scheduler b.ledger

variable {G : Ground} {a b next : State} {request : Request}
  {result : Except Refusal ReservationForest}

/-- A request comes to the same in both states. -/
theorem Even.step (h : Even G a b) (run : Pass.step a request = .ok (result, next)) :
    ∃ next', Pass.step b request = .ok (result, next') ∧ Even G next next' := by
  unfold Pass.step at run ⊢
  rcases h.allocate request.specification request.slot with
    ⟨done, done', ran, ran', same, even, -⟩ | ⟨fault, ran, -⟩
  · rw [ran] at run
    cases run
    rw [ran', ← same]
    exact ⟨_, rfl, even⟩
  · rw [ran] at run
    cases run

/-- A request that fails in one of the states does not take it off the other one. -/
theorem Even.skip {refusal : Refusal} (h : Even G a b)
    (run : Pass.step a request = .ok (.error refusal, next)) : Even G next b := by
  unfold Pass.step at run
  cases ran : a.scheduler.allocate request.specification request.slot a.ledger with
  | error fault =>
    rw [ran] at run
    cases run
  | ok done =>
    rw [ran] at run
    obtain ⟨refused, rfl⟩ := Prod.mk.inj (Except.ok.inj run)
    exact Scheduler.Even.refused h ran refused

/-- By induction on the requests, the states even before each of them that is kept. -/
theorem Even.run (requests : List Request) :
    ∀ {a b last : State} {outcomes : List Outcome} {keep : Nat → Bool}, Even G a b →
      Pass.run a requests = .ok (outcomes, last) →
      (∀ place o, outcomes[place]? = some o → keep place = false → ∃ refusal,
        o.result = .error refusal) →
      ∃ last', Pass.run b (kept keep requests) = .ok (kept keep outcomes, last')
        ∧ Even G last last' := by
  induction requests with
  | nil =>
    intro a b last outcomes keep h run _
    cases run
    exact ⟨b, rfl, h⟩
  | cons request requests ih =>
    intro a b last outcomes keep h run failed
    obtain ⟨result, next, others, first, rest, rfl⟩ := exists_of_run_cons run
    have failed_later (place : Nat) (o : Outcome) (there : others[place]? = some o)
        (dropped : keep (place + 1) = false) : ∃ refusal, o.result = .error refusal :=
      failed (place + 1) o there dropped
    rw [kept_cons, kept_cons]
    by_cases stays : keep 0
    · obtain ⟨next', first', even⟩ := h.step first
      obtain ⟨last', rest', ends⟩ := ih even rest failed_later
      refine ⟨last', ?_, ends⟩
      rw [if_pos stays, if_pos stays, run_cons, first', Except.bind, rest']
      rfl
    · -- a request that is left out has failed, so the other state may wait where it is
      obtain ⟨refusal, refused⟩ := failed 0 _ rfl (Bool.eq_false_iff.2 stays)
      simp only at refused
      rw [refused] at first
      rw [if_neg stays, if_neg stays]
      exact ih (h.skip first) rest failed_later

/-- When any of the requests that failed in a pass are left out of it, the others come to the same
as before, and so do the claims in force at its end. -/
theorem failed_requests_leave_no_trace {state last : State} {requests : List Request}
    {outcomes : List Outcome} (run : Pass.run state requests = .ok (outcomes, last))
    (keep : Nat → Bool)
    (failed : ∀ place o, outcomes[place]? = some o → keep place = false → ∃ refusal,
      o.result = .error refusal) :
    ∃ last', Pass.run state (kept keep requests) = .ok (kept keep outcomes, last')
      ∧ last'.ledger.applied.map Allocation.claim = last.ledger.applied.map Allocation.claim := by
  obtain ⟨last', run', even⟩ := Even.run requests (Scheduler.even_refl state.scheduler state.ledger)
    run failed
  exact ⟨last', run', even.claims⟩

/-- The second of the meetings finds no room, so the pass may do without it. -/
theorem sample_without_second_request :
    let start := opened (Scheduler.ofInventory Sample.inventory) "pass" ⟨0, 100, by decide⟩
    ∃ outcomes last, Pass.run start Sample.requests = .ok (outcomes, last)
      ∧ (∀ place o, outcomes[place]? = some o → (place != 1) = false →
        ∃ refusal, o.result = .error refusal)
      ∧ ∃ last', Pass.run start (kept (· != 1) Sample.requests)
        = .ok (kept (· != 1) outcomes, last')
        ∧ last'.ledger.applied.map Allocation.claim = last.ledger.applied.map Allocation.claim := by
  intro start
  have fails : ((Pass.run start Sample.requests).toOption.bind fun p =>
      p.1[1]?.map fun o => o.result.toOption.isNone) = some true := by decide +kernel
  cases run : Pass.run start Sample.requests with
  | error fault =>
    rw [run] at fails
    cases fails
  | ok p =>
    obtain ⟨outcomes, last⟩ := p
    rw [run, Except.toOption, Option.bind_some] at fails
    -- the only request that is dropped is the second one, which fails
    have failed (place : Nat) (o : Outcome) (there : outcomes[place]? = some o)
        (dropped : (place != 1) = false) : ∃ refusal, o.result = .error refusal := by
      obtain rfl : place = 1 := by simpa using dropped
      rw [there] at fails
      cases result : o.result with
      | ok tree =>
        rw [Option.map_some, result] at fails
        cases fails
      | error refusal => exact ⟨refusal, rfl⟩
    exact ⟨outcomes, last, rfl, failed, failed_requests_leave_no_trace run (· != 1) failed⟩

end Conference.Pass
