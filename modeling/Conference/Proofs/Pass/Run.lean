import Conference.Pass
import Conference.Proofs.Scheduler.Outcome
import Conference.Proofs.Session.Growth

/-!
# What a pass keeps

A pass on a scheduler goes from one session to the next. Snapshots stay in step with the inventory,
from the opening of the pass to its end, so whatever the claims that sessions admit keep true of the
allocations in force is true throughout the pass.
-/

namespace Conference

namespace Scheduler

theorem Reaches.exists_builds {s t : Session} {result : Except Refusal ReservationForest}
    (h : Reaches s t result) : ∃ made, s.Builds t made := by
  cases result with
  | ok tree =>
    obtain ⟨root, keys, builds, -⟩ := h
    exact ⟨_, builds⟩
  | error refusal => exact ⟨[], h⟩

theorem current_session {s : Scheduler} (reflects : s.registry.Reflects s.inventory)
    (ledger : Ledger) :
    (s.session ledger).Current where
  workingInterval := Registry.workingInterval_setWorkingInterval _ _
  reflects := Registry.reflects_setWorkingInterval reflects _

theorem reflects_openPass (s : Scheduler) (pass : String) (interval : Slot) :
    (s.openPass pass interval).2.registry.Reflects s.inventory :=
  Registry.reflects_clearSnapshots _ _

theorem resources_openPass (s : Scheduler) (pass : String) (interval : Slot) :
    (s.openPass pass interval).2.registry.resources = s.registry.resources := by
  show (s.registry.setWorkingInterval interval).clearSnapshots.resources = _
  rw [Registry.resources_clearSnapshots, Registry.resources_setWorkingInterval]

end Scheduler

namespace Pass

/-- The state in which a pass starts. -/
def opened (s : Scheduler) (pass : String) (interval : Slot) : State :=
  ⟨(s.openPass pass interval).1, (s.openPass pass interval).2⟩

theorem run_cons (state : State) (request : Request) (requests : List Request) :
    Pass.run state (request :: requests)
      = (Pass.step state request).bind fun first =>
        (Pass.run first.2 requests).map fun rest => (⟨request, first.1, 0⟩ :: rest.1, rest.2) := by
  unfold Pass.run
  simp only [runWith, Id.run, pure, bind]
  cases Pass.step state request with
  | error fault => rfl
  | ok first =>
    simp only [Except.bind]
    split <;> rename_i rest
    · rw [rest]
      rfl
    · rw [rest]
      rfl

/-- A pass goes on after its first request. -/
theorem exists_of_run_cons {state last : State} {request : Request} {requests : List Request}
    {outcomes : List Outcome} (h : Pass.run state (request :: requests) = .ok (outcomes, last)) :
    ∃ result next others, Pass.step state request = .ok (result, next)
      ∧ Pass.run next requests = .ok (others, last)
      ∧ outcomes = ⟨request, result, 0⟩ :: others := by
  rw [run_cons] at h
  cases first : Pass.step state request with
  | error fault =>
    rw [first] at h
    cases h
  | ok p =>
    rw [first, Except.bind] at h
    cases rest : Pass.run p.2 requests with
    | error fault =>
      rw [rest] at h
      cases h
    | ok q =>
      rw [rest] at h
      cases h
      exact ⟨p.1, p.2, q.1, rfl, rest, rfl⟩

/-- What is kept between two requests of a pass that has started out from the session `base`. -/
structure Keeps (base : Session) (P : List Allocation → Prop) (state : State) : Prop where
  agrees : base.Agrees (state.scheduler.session state.ledger)
  reflects : state.scheduler.registry.Reflects state.scheduler.inventory
  applied : P state.ledger.applied

section Keeps

variable {base : Session} {P : List Allocation → Prop}
  (claim : ∀ (u : Session) (a : Allocation), base.Agrees u → u.Admits a.resource a.slot a.usage →
    P u.ledger.applied → P (u.ledger.applied ++ [a]))

include claim

/-- One request keeps it. -/
theorem Keeps.step {state next : State} {request : Request}
    {result : Except Refusal ReservationForest} (before : Keeps base P state)
    (run : Pass.step state request = .ok (result, next)) :
    Keeps base P next := by
  unfold Pass.step at run
  cases allocated : state.scheduler.allocate request.specification request.slot state.ledger with
  | error fault =>
    rw [allocated] at run
    cases run
  | ok done =>
    rw [allocated] at run
    cases run
    show Keeps base P ⟨done.ledger, done.scheduler⟩
    obtain ⟨after, reached, ledger, scheduler⟩ := Scheduler.exists_reaches allocated
    obtain ⟨made, builds⟩ := reached.exists_builds
    have current := Scheduler.current_session before.reflects state.ledger
    have inventory : after.inventory = state.scheduler.inventory := builds.agrees.inventory
    rw [ledger, scheduler]
    -- the next session finds the registry as this one leaves it
    refine ⟨(before.agrees.trans builds.agrees).trans ⟨?_, ?_, rfl⟩, ?_, ?_⟩
    · exact inventory.symm
    · exact Registry.resources_setWorkingInterval _ _
    · rw [← inventory]
      exact (builds.current current).reflects
    · refine builds.applied_induction ReservationForest.inProgress_empty current ?_ before.applied
      exact fun u a agrees => claim u a (before.agrees.trans agrees)

/-- A whole pass keeps it, by induction on the requests. -/
theorem Keeps.run (requests : List Request) :
    ∀ {state last : State} {outcomes : List Outcome}, Keeps base P state →
      Pass.run state requests = .ok (outcomes, last) → Keeps base P last := by
  induction requests with
  | nil =>
    intro state last outcomes before run
    cases run
    exact before
  | cons request requests ih =>
    intro state last outcomes before run
    obtain ⟨result, next, others, first, rest, -⟩ := exists_of_run_cons run
    exact ih (before.step claim first) rest

end Keeps

/-- What claims keep true of the allocations in force is true at the end of each pass. -/
theorem applied_of_run {s : Scheduler} {pass : String} {interval : Slot}
    {P : List Allocation → Prop}
    (claim : ∀ (u : Session) (a : Allocation), u.inventory = s.inventory →
      u.registry.resources = s.registry.resources → u.ledger.workingInterval = interval →
        u.Admits a.resource a.slot a.usage → P u.ledger.applied → P (u.ledger.applied ++ [a]))
    (init : P []) {requests : List Request} {outcomes : List Outcome} {last : State}
    (run : Pass.run (opened s pass interval) requests = .ok (outcomes, last)) :
    P last.ledger.applied := by
  let base := (s.openPass pass interval).2.session (s.openPass pass interval).1
  have resources : base.registry.resources = s.registry.resources :=
    (Registry.resources_setWorkingInterval _ _).trans (s.resources_openPass pass interval)
  have before : Keeps base P (opened s pass interval) :=
    ⟨.refl base, s.reflects_openPass pass interval, init⟩
  -- a session of a later request still shows the resources of the scheduler
  refine (before.run ?_ requests run).applied
  intro u a agrees
  exact claim u a agrees.inventory (agrees.resources.trans resources) agrees.workingInterval

end Pass

end Conference
