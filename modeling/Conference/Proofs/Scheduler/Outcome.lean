import Conference.Proofs.Allocation.Compartment
import Conference.Proofs.Allocation.Recording
import Conference.Scheduler

/-!
# What an allocation comes to

All kinds of work are orderly, so an allocation that succeeds has built one tree and one that is
refused has built nothing.
-/

namespace Conference

theorem Work.orderly_job (work : Work) (slot : Slot) : (work.job slot).Orderly := by
  cases work with
  | resource id => exact Exclusive.orderly_job id slot
  | endpoint id label => exact Exclusive.orderly_endpointJob id label slot
  | room spec => exact spec.orderly_job slot
  | recording spec => exact spec.orderly_job slot
  | dialAlias spec target => exact spec.orderly_job target slot
  | compartment participants => exact Compartment.orderly_job participants slot

namespace Scheduler

/-- From `s` the work of an allocation has come to `t` with the given result. -/
def Reaches (s t : Session) : Except Refusal ReservationForest → Prop
  | .ok tree => ∃ root keys, s.Builds t [root :: keys] ∧ tree = t.reservations.setRoot root
  | .error _ => s.Builds t []

theorem reaches_of_conclude {s : Scheduler} {base after : Session} {outcome : Except Failure Nat}
    {done : Allocated}
    (built : Attempt.Ends (fun key t => ∃ keys, base.Builds t [key :: keys])
      (fun _ t => base.Builds t []) outcome after)
    (h : s.conclude outcome after = .ok done) :
    Reaches base after done.result ∧ done.ledger = after.ledger
      ∧ done.scheduler = { s with registry := after.registry } := by
  unfold conclude at h
  cases outcome with
  | ok root =>
    obtain ⟨keys, builds⟩ := built
    -- a tree with a node outside its parent's slot is a fault, and then nothing is returned
    simp only at h
    split at h
    · cases h
    · cases h
      exact ⟨⟨root, keys, builds, rfl⟩, rfl, rfl⟩
  | error failure =>
    cases h
    exact ⟨built, rfl, rfl⟩

/-- What an allocation that meets no fault leaves behind is what its session has come to. -/
theorem exists_reaches {s : Scheduler} {spec : Specification} {slot : Slot} {ledger : Ledger}
    {done : Allocated} (h : s.allocate spec slot ledger = .ok done) :
    ∃ after, Reaches (s.session ledger) after done.result ∧ done.ledger = after.ledger
      ∧ done.scheduler = { s with registry := after.registry } := by
  unfold allocate at h
  have ensured := Job.perform_ensures (Work.orderly_job (Work.ofSpecification spec) slot)
    (s.session ledger)
  cases run : ((Work.ofSpecification spec).job slot).perform (s.session ledger) with
  | error fault =>
    rw [run] at h
    cases h
  | ok p =>
    rw [run] at h
    obtain ⟨⟨outcome, job⟩, after⟩ := p
    exact ⟨after, reaches_of_conclude (ensured _ _ run) h⟩

/-- What the work of a specification delivers, with its node as the root, holds of the tree that is
granted. -/
theorem granted_of_delivers {s : Scheduler} {spec : Specification} {slot : Slot} {ledger : Ledger}
    {done : Allocated} {tree : ReservationForest} (run : s.allocate spec slot ledger = .ok done)
    (success : done.result = .ok tree) {P : ReservationForest → Prop}
    (delivers : ∀ t : Session, (s.session ledger).Quiet t →
      (((Work.ofSpecification spec).job slot).work
        ((Work.ofSpecification spec).job slot).slot).Delivers t fun key t =>
          P (t.reservations.setRoot key)) : P tree := by
  let job := (Work.ofSpecification spec).job slot
  have delivered : job.perform.Ensures (s.session ledger) fun r t =>
      Attempt.Ends (fun key t => P (t.reservations.setRoot key)) (fun _ _ => True) r.1 t :=
    Job.perform_delivers (delivers _ (Session.quiet_enter _ job.title))
  unfold allocate at run
  cases performed : job.perform (s.session ledger) with
  | error fault =>
    rw [performed] at run
    cases run
  | ok p =>
    obtain ⟨⟨outcome, after⟩, t⟩ := p
    have ends := delivered _ _ performed
    rw [performed] at run
    -- only a successful outcome is concluded with a tree
    change s.conclude outcome t = .ok done at run
    unfold conclude at run
    cases outcome with
    | error failure =>
      cases run
      cases success
    | ok root =>
      simp only at run
      split at run
      · cases run
      · cases run
        cases success
        exact ends

/-- A refusal is what a failure of the work comes to, with all reports that have been made by
then. -/
theorem exists_failure {s : Scheduler} {spec : Specification} {slot : Slot} {ledger : Ledger}
    {done : Allocated} {refusal : Refusal} (run : s.allocate spec slot ledger = .ok done)
    (refused : done.result = .error refusal) {ok : Nat → Session → Prop}
    {failed : Failure → Session → Prop}
    (performed : ((Work.ofSpecification spec).job slot).perform.Ensures (s.session ledger)
      fun r t => Attempt.Ends ok failed r.1 t) :
    ∃ e t, failed e t ∧ refusal = ⟨e.kind, t.reports, e.cause⟩ := by
  unfold allocate at run
  cases ran : ((Work.ofSpecification spec).job slot).perform (s.session ledger) with
  -- a fault is no answer, so there is nothing to explain
  | error fault =>
    rw [ran] at run
    cases run
  | ok p =>
    obtain ⟨⟨outcome, after⟩, t⟩ := p
    -- a failed performance has no tree, and concluding only wraps its failure up
    have ends := performed _ _ ran
    rw [ran] at run
    change s.conclude outcome t = .ok done at run
    unfold conclude at run
    cases outcome with
    | ok root =>
      simp only at run
      split at run
      · cases run
      · cases run
        cases refused
    | error e =>
      cases run
      cases refused
      exact ⟨e, t, ends, rfl⟩

end Scheduler

end Conference
