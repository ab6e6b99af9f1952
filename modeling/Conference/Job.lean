import Conference.Session

/-!
# Jobs

A job is one unit of allocation for a slot, and is performed once. When it fails, the allocations
and reservations that it or the jobs within it made are undone, and the reports that it opened are
errors.
-/

namespace Conference

structure Job where
  slot : Slot
  /-- The report under which the job explains itself. -/
  title : Report
  /-- What the job does. The key is that of the node which stands for all that it reserved. -/
  work : Slot → Attempt Nat
  state : JobState

namespace Job

/-- A job that has not been performed yet. -/
def new (slot : Slot) (title : Report) (work : Slot → Attempt Nat) : Job :=
  ⟨slot, title, work, .created⟩

/-- The work of a job, if its slot lies within the working interval. -/
def attempt (job : Job) : Attempt Nat := do
  let interval := (← get).ledger.workingInterval
  if interval.contains job.slot then job.work job.slot
  else Attempt.refuse (.slotOutsideWorkingInterval job.slot interval)

/-- Performs a job. To perform it a second time is a fault. -/
def perform (job : Job) : Action (Except Failure Nat × Job) := do
  if job.state = .created then
    let savepoint := (← get).savepoint
    modify (·.enter job.title)
    match ← Action.outcome job.attempt with
    | .ok key =>
      modify (·.leave)
      pure (.ok key, { job with state := .succeeded })
    | .error failure =>
      modify (·.leaveError)
      modify (·.rollback savepoint)
      pure (.error failure, { job with state := .failed })
  else throw (.jobAlreadyPerformed job.slot job.state)

/-- Performs a job as a part of another. -/
def run (job : Job) : Attempt Nat := ExceptT.mk (do pure (← job.perform).1)

/-- Performs a job and makes the node that stands for it a child of `parent`. -/
def runUnder (job : Job) (parent : Nat) : Attempt Nat := do
  let key ← job.run
  Action.change (·.attach parent key)
  pure key

end Job

end Conference
