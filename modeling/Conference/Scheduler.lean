import Conference.Work

/-!
# Schedulers

The entry to allocation. A scheduler owns an inventory and the registry built from it. A pass is
opened on a working interval with a ledger of its own; each allocation either adds to that ledger
and returns a tree of reservations, or leaves the allocations in the ledger as they were and
explains why.
-/

namespace Conference

/-- A failed allocation: its reports, and which of them is the cause. -/
structure Refusal where
  kind : FailureKind
  reports : ReportForest
  cause : Nat
deriving DecidableEq

namespace Refusal

def explanation (r : Refusal) : String := r.reports.renderAll

def render (r : Refusal) : String := s!"Allocation failed ({r.kind.render}):\n" ++ r.explanation

end Refusal

structure Scheduler where
  inventory : Inventory
  registry : Registry

namespace Scheduler

/-- The result of an allocation, and what it leaves behind. -/
structure Allocated where
  result : Except Refusal ReservationForest
  ledger : Ledger
  scheduler : Scheduler

def ofInventory (inventory : Inventory) : Scheduler := ⟨inventory, Registry.empty.load inventory⟩

/-- Registers the resources of the inventory anew. -/
def reload (s : Scheduler) : Scheduler := { s with registry := s.registry.load s.inventory }

/-- Opens a pass on a working interval. All snapshots are dropped, so allocations that have been
committed since are seen. -/
def openPass (s : Scheduler) (pass : String) (interval : Slot) : Ledger × Scheduler :=
  (.empty pass interval,
    { s with registry := (s.registry.setWorkingInterval interval).clearSnapshots })

/-- The session in which a scheduler allocates on a ledger. -/
def session (s : Scheduler) (ledger : Ledger) : Session :=
  .start ledger (s.registry.setWorkingInterval ledger.workingInterval) s.inventory

/-- The result that the outcome of the top-level job means. A finished tree in which a node lies
outside the slot of its parent is a fault. -/
def conclude (s : Scheduler) (outcome : Except Failure Nat) (after : Session) :
    Except Fault Allocated :=
  let left : Scheduler := { s with registry := after.registry }
  match outcome with
  | .ok root =>
    let tree := after.reservations.setRoot root
    match tree.violation? with
    | some _ => .error .slotContainment
    | none => .ok ⟨.ok tree, after.ledger, left⟩
  | .error failure =>
    .ok ⟨.error ⟨failure.kind, after.reports, failure.cause⟩, after.ledger, left⟩

def allocate (s : Scheduler) (spec : Specification) (slot : Slot) (ledger : Ledger) :
    Except Fault Allocated := do
  let ((outcome, _), after) ← ((Work.ofSpecification spec).job slot).perform (s.session ledger)
  s.conclude outcome after

/-- Tells whether an allocation would succeed: the refusal if not. The ledger is not touched. -/
def check (s : Scheduler) (spec : Specification) (slot : Slot) (ledger : Ledger) :
    Except Fault (Option Refusal × Scheduler) := do
  let done ← s.allocate spec slot ledger
  match done.result with
  | .ok _ => pure (none, done.scheduler)
  | .error refusal => pure (some refusal, done.scheduler)

end Scheduler

end Conference
