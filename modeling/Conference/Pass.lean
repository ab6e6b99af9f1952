import Conference.Scheduler
import Conference.Statistics

/-!
# Passes

A scheduling pass allocates requests in their order. Each request sees the allocations of those
before it that succeeded. The time that a request takes is measured by a clock; without one it
counts as zero.
-/

namespace Conference.Pass

/-- What became of a request. -/
structure Outcome where
  request : Request
  result : Except Refusal ReservationForest
  /-- The time taken, in microseconds. -/
  elapsed : Int

structure State where
  ledger : Ledger
  scheduler : Scheduler

def step (state : State) (request : Request) :
    Except Fault (Except Refusal ReservationForest × State) := do
  let done ← state.scheduler.allocate request.specification request.slot state.ledger
  pure (done.result, ⟨done.ledger, done.scheduler⟩)

/-- Allocates requests one after the other, reading `clock` before and after each. -/
def runWith {m : Type → Type} [Monad m] (clock : m Int) (state : State) :
    List Request → m (Except Fault (List Outcome × State))
  | [] => pure (.ok ([], state))
  | request :: requests => do
    let before ← clock
    match step state request with
    | .error fault => pure (.error fault)
    | .ok (result, next) =>
      let after ← clock
      match ← runWith clock next requests with
      | .error fault => pure (.error fault)
      | .ok (outcomes, last) => pure (.ok (⟨request, result, after - before⟩ :: outcomes, last))

def run (state : State) (requests : List Request) : Except Fault (List Outcome × State) :=
  Id.run (runWith (pure 0) state requests)

def event (pass : String) (o : Outcome) : Statistics.Event :=
  let common := Statistics.Event.empty
    |>.set .passId (.text pass)
    |>.set .requestId (.text o.request.id.text)
    |>.set .specificationKind (.text o.request.specification.kindName)
    |>.set .slotStart (.integer o.request.slot.start)
    |>.set .slotEnd (.integer o.request.slot.stop)
    |>.set .processingTime (.integer o.elapsed)
  match o.result with
  | .ok tree => common
    |>.set .outcome (.text Statistics.allocated)
    |>.set .reservationCount (.integer tree.size)
  | .error refusal => common
    |>.set .outcome (.text Statistics.failed)
    |>.set .failureKind (.text refusal.kind.render)
    |>.set .reportCount (.integer refusal.reports.size)

def statistics (pass : String) (outcomes : List Outcome) : List Statistics.Event :=
  outcomes.map (event pass)

def trees (outcomes : List Outcome) : List ReservationForest :=
  outcomes.filterMap fun o => match o.result with
    | .ok tree => some tree
    | .error _ => none

/-- Commits trees one after the other. The identifiers of the new allocations come with the
result. -/
def commitAll (inventory : Inventory) : List ReservationForest → List GlobalId × Inventory
  | [] => ([], inventory)
  | tree :: rest =>
    let one := inventory.commit tree
    let others := commitAll one.2 rest
    (one.1 ++ others.1, others.2)

end Conference.Pass
