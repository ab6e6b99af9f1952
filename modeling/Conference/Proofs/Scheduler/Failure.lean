import Conference.Proofs.Scheduler.Outcome
import Conference.Proofs.Session.Growth

/-!
# Failure leaves nothing behind

The sessions that can come up within an allocation start from that of a scheduler and go on by what
sessions do. In all of them the forest is in progress, so whatever a job has built before it fails
is undone to the last node and allocation.
-/

namespace Conference

/-- The sessions that can come up within an allocation. Nodes, links and savepoints are arbitrary
here, which takes in at least those that jobs use. -/
inductive Session.Reachable : Session → Prop where
  | start (scheduler : Scheduler) (ledger : Ledger) : Reachable (scheduler.session ledger)
  | quiet {s t : Session} : Reachable s → s.Quiet t → Reachable t
  | create {s : Session} (node : Reservation) : Reachable s → Reachable (s.create node).2
  | attach {s t : Session} {parent child : Nat} :
      Reachable s → s.attach parent child = .ok t → Reachable t
  | rollback {s : Session} (p : Savepoint) : Reachable s → Reachable (s.rollback p)

namespace Session

theorem Reachable.inProgress {s : Session} (h : s.Reachable) : s.reservations.InProgress := by
  induction h with
  | start => exact ReservationForest.inProgress_empty
  | quiet _ quiet ih =>
    rw [quiet.reservations]
    exact ih
  | create node _ ih => exact ih.of_grows ((ReservationForest.Grows.refl _).insert node)
  | attach _ attached ih =>
    obtain ⟨f, linked, rfl⟩ := attach_eq_ok attached
    exact ih.attach linked
  | rollback p _ ih => exact ih.truncate p.reservations

/-- Allocation stays among the reachable sessions. -/
theorem Builds.reachable {s t : Session} {made : List (List Nat)} (h : s.Builds t made) :
    s.Reachable → t.Reachable := by
  induction h with
  | start => exact id
  | quiet _ quiet ih => exact fun start => (ih start).quiet quiet
  | create node _ _ ih => exact fun start => (ih start).create node
  | attach _ attached ih => exact fun start => (ih start).attach attached
  | reorder _ _ ih => exact ih
  | rollback _ _ ih ih' => exact fun start => (ih' (ih start)).rollback _

end Session

/-- A job that fails leaves the ledger, but for the number of identifiers given out, and the nodes,
links and journal of the forest as they were. So does a refused allocation with the ledger. -/
theorem Scheduler.failure_leaves_nothing :
    (∀ {s : Session}, s.Reachable → ∀ (work : Work) (slot : Slot) {failure : Failure} {job : Job}
        {t : Session}, (work.job slot).perform s = .ok ((.error failure, job), t) →
      t.ledger = { s.ledger with issued := t.ledger.issued } ∧ s.ledger.issued ≤ t.ledger.issued
        ∧ t.reservations = { s.reservations with nextKey := t.reservations.nextKey })
    ∧ ∀ (scheduler : Scheduler) (spec : Specification) (slot : Slot) (ledger : Ledger)
        {done : Allocated} {refusal : Refusal}, scheduler.allocate spec slot ledger = .ok done →
      done.result = .error refusal →
      done.ledger = { ledger with issued := done.ledger.issued }
        ∧ ledger.issued ≤ done.ledger.issued := by
  constructor
  · intro s reachable work slot failure job t run
    have built := Job.perform_ensures (work.orderly_job slot) s _ _ run
    exact Session.Builds.eq_of_nil built reachable.inProgress
  · intro scheduler spec slot ledger done refusal run refused
    obtain ⟨after, reached, left, -⟩ := Scheduler.exists_reaches run
    rw [refused] at reached
    -- an allocation performs its job in a session that can be reached
    have start : (scheduler.session ledger).Reachable := .start scheduler ledger
    obtain ⟨same, more, -⟩ := Session.Builds.eq_of_nil reached start.inProgress
    rw [left]
    exact ⟨same, more⟩

/-- A participant from outside has its node already when the second one turns out not to exist. -/
theorem Scheduler.missing_terminal_leaves_nothing :
    let scheduler := Scheduler.ofInventory (.empty "campus")
    let ledger := Ledger.empty "pass" ⟨0, 10, by decide⟩
    let s := scheduler.session ledger
    let work := Work.compartment [.external .empty 1, .existing ⟨"t1"⟩]
    (∃ failure job t, (work.job ⟨2, 4, by decide⟩).perform s = .ok ((.error failure, job), t)
      ∧ t.ledger = { s.ledger with issued := t.ledger.issued } ∧ s.ledger.issued ≤ t.ledger.issued
      ∧ t.reservations = { s.reservations with nextKey := t.reservations.nextKey })
    ∧ ∃ done refusal,
      scheduler.allocate (.resource ⟨"t1"⟩) ⟨2, 4, by decide⟩ ledger = .ok done
      ∧ done.result = .error refusal
      ∧ done.ledger = { ledger with issued := done.ledger.issued }
      ∧ ledger.issued ≤ done.ledger.issued := by
  intro scheduler ledger s work
  constructor
  · -- the external endpoint is placed before the terminal is found missing
    refine ⟨_, _, _, rfl, ?_⟩
    exact Scheduler.failure_leaves_nothing.1 (.start scheduler ledger) work ⟨2, 4, by decide⟩ rfl
  · refine ⟨_, _, rfl, rfl, ?_⟩
    exact Scheduler.failure_leaves_nothing.2 scheduler (.resource ⟨"t1"⟩)
      ⟨2, 4, by decide⟩ ledger rfl rfl

end Conference
