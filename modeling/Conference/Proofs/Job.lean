import Conference.Job
import Conference.Proofs.Session.Builds
import Conference.Proofs.Session.Ensures

/-!
# Jobs build trees

A job is *orderly* when its work builds one tree, the root of which it hands over. Whatever such
work leaves behind when it fails, the job takes back: a job that fails has built nothing.
-/

namespace Conference

/-- The attempt builds a tree and hands over its root. If it fails it may leave trees behind. -/
def Attempt.BuildsTree (a : Attempt Nat) (s : Session) : Prop :=
  a.Ensures s (fun key s' => ∃ keys, s.Builds s' [key :: keys]) fun _ s' => s.Leaves s'

namespace Job

variable {job : Job} {s : Session}

/-! ## Rules -/

/-- The attempt of a job ends as its work does, or is refused since the slot lies outside. -/
theorem attempt_rule {ok : Nat → Session → Prop} {failed : Failure → Session → Prop}
    (outside : ∀ interval, failed (s.fail (.slotOutsideWorkingInterval job.slot interval)).1
      (s.fail (.slotOutsideWorkingInterval job.slot interval)).2)
    (work : (job.work job.slot).Ensures s ok failed) : job.attempt.Ensures s ok failed := by
  unfold attempt
  apply Attempt.Ensures.get_bind
  simp only
  split
  · exact work
  · exact Attempt.Ensures.refuse (outside _)

/-- Performing a job is its attempt within its scope, which is left at the end. A failure is rolled
back. -/
theorem perform_rule {ok : Nat → Session → Prop} {failed : Failure → Session → Prop}
    (attempted : job.attempt.Ensures (s.enter job.title) (fun key t => ok key t.leave)
      fun e t => failed e (t.leaveError.rollback s.savepoint)) :
    job.perform.Ensures s fun r t => Attempt.Ends ok failed r.1 t := by
  unfold perform
  split
  · -- the savepoint is that of `s`, before the report of the job is opened
    apply Action.Ensures.get_bind
    apply Action.Ensures.modify_bind
    refine Action.Ensures.bind (Action.Ensures.outcome attempted) ?_
    intro r t done
    cases r with
    | ok key =>
      apply Action.Ensures.modify_bind
      exact Action.Ensures.pure done
    | error e =>
      apply Action.Ensures.modify_bind
      apply Action.Ensures.modify_bind
      exact Action.Ensures.pure done
  · exact Action.Ensures.fault

/-- A job that runs within another one ends as performing it does. -/
theorem run_rule {ok : Nat → Session → Prop} {failed : Failure → Session → Prop}
    (performed : job.perform.Ensures s fun r t => Attempt.Ends ok failed r.1 t) :
    job.run.Ensures s ok failed := by
  unfold run
  apply Attempt.Ensures.of_action
  refine Action.Ensures.bind performed ?_
  rintro ⟨r, _⟩ t done
  exact Action.Ensures.pure done

/-! ## Trees -/

def Orderly (job : Job) : Prop := ∀ s, (job.work job.slot).BuildsTree s

/-- An attempt that is refused outright has built nothing. -/
theorem attempt_buildsTree (orderly : job.Orderly) (s : Session) : job.attempt.BuildsTree s :=
  attempt_rule (fun _ => .of_quiet (s.quiet_fail _)) (orderly s)

/-- Performing a job either builds one tree or nothing. -/
theorem perform_ensures (orderly : job.Orderly) (s : Session) :
    job.perform.Ensures s fun r s' =>
      Attempt.Ends (fun key s' => ∃ keys, s.Builds s' [key :: keys])
        (fun _ s' => s.Builds s' []) r.1 s' := by
  have entered := s.quiet_enter job.title
  refine perform_rule ((attempt_buildsTree orderly (s.enter job.title)).mono ?_ ?_)
  · rintro key t ⟨keys, builds⟩
    exact ⟨keys, (builds.after_quiet entered).quiet t.quiet_leave⟩
  · rintro _ t ⟨made, builds⟩
    exact ((builds.after_quiet entered).quiet t.quiet_leaveError).undo

/-- What the work of a job delivers the job delivers, seen from outside of its scope. -/
theorem perform_delivers {ok : Nat → Session → Prop}
    (work : (job.work job.slot).Delivers (s.enter job.title) fun key t => ok key t.leave) :
    job.perform.Ensures s fun r s' => Attempt.Ends ok (fun _ _ => True) r.1 s' :=
  perform_rule (attempt_rule (fun _ => trivial) work)

/-- A nested job delivers what its work does. -/
theorem run_delivers {ok : Nat → Session → Prop}
    (work : (job.work job.slot).Delivers (s.enter job.title) fun key t => ok key t.leave) :
    job.run.Delivers s ok := run_rule (perform_delivers work)

/-- It leaves one tree behind, or nothing at all. -/
theorem run_ensures (orderly : job.Orderly) (s : Session) :
    job.run.Ensures s (fun key s' => ∃ keys, s.Builds s' [key :: keys]) fun _ s' =>
      s.Builds s' [] :=
  run_rule (perform_ensures orderly s)

/-- A job within another adds its tree to that of its parent. -/
theorem runUnder_ensures (orderly : job.Orderly) {base : Session} {parent : Nat} {ps : List Nat}
    (h : base.Builds s [parent :: ps]) :
    (job.runUnder parent).Ensures s (fun _ s' => ∃ ps', base.Builds s' [parent :: ps'])
      fun _ s' => base.Builds s' [parent :: ps] := by
  unfold runUnder
  -- the new tree stands beside that of the parent until it is attached
  have inner : job.run.Ensures s (fun key s' => ∃ keys, base.Builds s' [parent :: ps, key :: keys])
      fun _ s' => base.Builds s' [parent :: ps] := by
    refine (run_ensures orderly s).mono ?_ ?_
    · rintro key s' ⟨keys, builds⟩
      exact ⟨keys, h.trans builds⟩
    · intro _ s' builds
      exact h.trans builds
  refine Attempt.Ensures.bind inner ?_
  rintro key s' ⟨keys, builds⟩
  apply Attempt.Ensures.change_bind
  intro s'' attached
  apply Attempt.Ensures.pure
  exact ⟨ps ++ key :: keys, builds.attach attached⟩

/-! ## What performing comes to -/

variable {t : Session}

/-- Performing a job is its attempt, and then the end of its scope. -/
theorem perform_eq (fresh : job.state = .created) (s : Session) :
    job.perform s = ((do
      match ← Action.outcome job.attempt with
      | .ok key =>
        modify (·.leave)
        pure (.ok key, { job with state := .succeeded })
      | .error failure =>
        modify (·.leaveError)
        modify (·.rollback s.savepoint)
        pure (.error failure, { job with state := .failed })) : Action (Except Failure Nat × Job))
        (s.enter job.title) := by
  unfold perform
  rw [if_pos fresh]
  rfl

/-- The attempt at a state, with the check of the slot spelled out. -/
theorem attempt_eq (job : Job) (s : Session) :
    job.attempt s = (if s.ledger.workingInterval.contains job.slot then job.work job.slot
      else Attempt.refuse (.slotOutsideWorkingInterval job.slot s.ledger.workingInterval)) s := rfl

/-- Within the working interval the attempt is the work. -/
theorem attempt_of_within (within : s.ledger.workingInterval.contains job.slot)
    {r : Except Failure Nat} (worked : job.work job.slot (s.enter job.title) = .ok (r, t)) :
    Action.outcome job.attempt (s.enter job.title) = .ok (r, t) := by
  have inside : (s.enter job.title).ledger.workingInterval.contains job.slot := within
  rw [Action.outcome, attempt_eq, if_pos inside]
  exact worked

/-- Work that succeeds succeeds as a job, and its scope is left. -/
theorem perform_of_ok (fresh : job.state = .created)
    (within : s.ledger.workingInterval.contains job.slot) {key : Nat}
    (worked : job.work job.slot (s.enter job.title) = .ok (.ok key, t)) :
    job.perform s = .ok ((.ok key, { job with state := .succeeded }), t.leave) := by
  rw [perform_eq fresh, Action.bind_of_ok (attempt_of_within within worked)]
  rfl

/-- After a failed attempt the session is rolled back to where the job began. -/
theorem perform_of_error (fresh : job.state = .created) {e : Failure}
    (attempted : Action.outcome job.attempt (s.enter job.title) = .ok (.error e, t)) :
    job.perform s = .ok ((.error e, { job with state := .failed }),
      t.leaveError.rollback s.savepoint) := by
  rw [perform_eq fresh, Action.bind_of_ok attempted]
  rfl

/-- A job fails if its slot lies outside the working interval, or else if its work fails. -/
theorem exists_perform_error (fresh : job.state = .created)
    (failed : s.ledger.workingInterval.contains job.slot →
      ∃ e t, job.work job.slot (s.enter job.title) = .ok (.error e, t)) :
    ∃ e after t, job.perform s = .ok ((.error e, after), t) := by
  by_cases within : s.ledger.workingInterval.contains job.slot
  · obtain ⟨e, t, worked⟩ := failed within
    exact ⟨e, _, _, perform_of_error fresh (attempt_of_within within worked)⟩
  · have outside : Action.outcome job.attempt (s.enter job.title)
        = Attempt.refuse (.slotOutsideWorkingInterval job.slot s.ledger.workingInterval)
          (s.enter job.title) := by
      rw [Action.outcome, attempt_eq]
      exact congrFun (if_neg within) _
    exact ⟨_, _, _, perform_of_error fresh outside⟩

/-- So a nested job succeeds with its work. -/
theorem run_of_ok (fresh : job.state = .created)
    (within : s.ledger.workingInterval.contains job.slot) {key : Nat}
    (worked : job.work job.slot (s.enter job.title) = .ok (.ok key, t)) :
    job.run s = .ok (.ok key, t.leave) :=
  Action.bind_of_ok (perform_of_ok fresh within worked)

/-- It fails when its work does. -/
theorem run_of_error (fresh : job.state = .created)
    (within : s.ledger.workingInterval.contains job.slot) {e : Failure}
    (worked : job.work job.slot (s.enter job.title) = .ok (.error e, t)) :
    job.run s = .ok (.error e, t.leaveError.rollback s.savepoint) :=
  Action.bind_of_ok (perform_of_error fresh (attempt_of_within within worked))

end Job

end Conference
