import Conference.Proofs.Job
import Conference.Proofs.Parallel.Survey
import Conference.Proofs.Session.Growth

/-!
# Jobs in alike sessions

A job is *steady* when its work does the same in alike sessions. Then so does the job as a whole:
both runs go back to savepoints that stand for the same, if they fail.
-/

namespace Conference

open Session (FailAlike)

variable {slot : Slot} {G : Ground} {k : Likeness slot} {read : List ResourceId} {s t : Session}
  {allowed : Fault → Prop}

/-- Both runs hand over the same node, each under its own key. -/
def Session.KeyAlike (G : Ground) (k : Likeness slot) (read : List ResourceId) (key : Nat)
    (s : Session) (key' : Nat) (t : Session) : Prop :=
  key' = key + k.ahead ∧ s.Alike G k read t

open Session (KeyAlike)

/-- In alike sessions the attempt goes the same way. -/
def Attempt.Steady (allowed : Fault → Prop) (G : Ground) (k : Likeness slot)
    (a : Attempt Nat) : Prop :=
  ∀ {read : List ResourceId} {s t : Session}, s.Alike G k read t →
    a.Pairs allowed s a t (KeyAlike G k read) (FailAlike G k read)

namespace Job

variable {job : Job}

/-- A job for the slot that has not been performed yet, and goes the same way in alike sessions. -/
structure Steady (allowed : Fault → Prop) (G : Ground) (k : Likeness slot) (job : Job) : Prop where
  for_slot : job.slot = slot
  fresh : job.state = .created
  work : (job.work slot).Steady allowed G k

theorem attempt_steady (steady : job.Steady allowed G k) : job.attempt.Steady allowed G k := by
  intro read s t h
  unfold attempt
  apply Attempt.Pairs.get_bind
  simp only
  rw [steady.for_slot, h.right.interval, h.left.interval]
  split
  · exact steady.work h
  · exact Attempt.Pairs.refuse (h.fail _)

theorem perform_pairs (steady : job.Steady allowed G k) (h : s.Alike G k read t) :
    job.perform.Pairs allowed s job.perform t fun r s' r' t' =>
      Attempt.Meet (KeyAlike G k read) (FailAlike G k read) r.1 s' r'.1 t' := by
  unfold perform
  rw [if_pos steady.fresh]
  apply Action.Pairs.get_bind
  apply Action.Pairs.modify_bind
  have entered := h.report (Session.reporting_enter job.title)
  refine Action.Pairs.outcome_bind (attempt_steady steady entered) ?_ ?_
  · intro key s' key' t' ⟨same, worked⟩
    apply Action.Pairs.modify_bind
    apply Action.Pairs.pure
    exact ⟨same, worked.report Session.reporting_leave⟩
  · intro e s' e' t' ⟨same, failed⟩
    apply Action.Pairs.modify_bind
    apply Action.Pairs.modify_bind
    apply Action.Pairs.pure
    -- the savepoints are those of the sessions before the job, which were alike
    exact ⟨same, h.rollback (failed.report Session.reporting_leaveError)⟩

theorem run_steady (steady : job.Steady allowed G k) : job.run.Steady allowed G k := by
  intro read s t h
  unfold run
  apply Attempt.Pairs.of_action
  refine Action.Pairs.bind (perform_pairs steady h) ?_
  rintro ⟨r, _⟩ s' ⟨r', _⟩ t' met
  exact Action.Pairs.pure met

/-- A job within another: the node that it makes has no parent yet, so it can be attached. -/
theorem runUnder_pairs (steady : job.Steady allowed G k) (orderly : job.Orderly) {base : Session}
    (start : base.reservations.InProgress) {parent : Nat} {ps : List Nat}
    (builds : base.Builds s [parent :: ps]) (h : s.Alike G k read t) :
    (job.runUnder parent).Pairs allowed s (job.runUnder (parent + k.ahead)) t
      (fun _ s' _ t' => (∃ ps', base.Builds s' [parent :: ps']) ∧ s'.Alike G k read t')
      (FailAlike G k read) := by
  unfold runUnder
  refine Attempt.Pairs.bind ((run_steady steady h).with_left_ok (run_ensures orderly s)) ?_
  rintro key s' key' t' ⟨⟨keys, built⟩, rfl, h'⟩
  -- on the left the two trees can be linked, and so they can on the right
  have trees := builds.trans built
  obtain ⟨s'', left⟩ := trees.exists_attach start
  obtain ⟨t'', right, h''⟩ := h'.attach left
  refine Attempt.Pairs.change_bind left right ?_
  exact Attempt.Pairs.pure ⟨⟨_, trees.attach left⟩, h''⟩

end Job

end Conference
