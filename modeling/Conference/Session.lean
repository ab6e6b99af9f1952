import Conference.Registry
import Conference.Report.Forest
import Conference.Candidate

/-!
# Sessions

A session is everything that one allocation works with: the ledger of the pass, the registry and
inventory behind it, the reports that explain the allocation and the reservations made so far.
Reports are scoped: the innermost open report is the parent of the next one. Each job remembers how
many reports were open when it started, so that its end closes exactly those that it opened.

Allocation is written in two layers of effects over a session. An `Action` changes the session and
may run into a fault. An `Attempt` may also fail, which keeps the session as it then is.
-/

namespace Conference

/-- Why an allocation failed: the report that explains it, and its kind. -/
structure Failure where
  cause : Nat
  kind : FailureKind
deriving DecidableEq

structure Session where
  ledger : Ledger
  registry : Registry
  inventory : Inventory
  reports : ReportForest
  reservations : ReservationForest
  /-- The open reports, innermost first. -/
  openReports : List Nat
  /-- The numbers of reports that were open when the running jobs started, innermost job first. -/
  depths : List Nat

/-- A position to roll a session back to. -/
structure Savepoint where
  applied : Nat
  reservations : Nat
deriving DecidableEq

namespace Session

/-- A session in which nothing has been reported or reserved yet. -/
def start (ledger : Ledger) (registry : Registry) (inventory : Inventory) : Session where
  ledger := ledger
  registry := registry
  inventory := inventory
  reports := .empty
  reservations := .empty
  openReports := []
  depths := []

/-- Adds a report under the innermost open one. -/
def addReport (s : Session) (report : Report) : Session :=
  { s with reports := match s.openReports with
    | [] => s.reports.addRoot report
    | parent :: _ => s.reports.addChild parent report }

def openReport (s : Session) (report : Report) : Session :=
  { s.addReport report with openReports := s.reports.size :: s.openReports }

def closeReport (s : Session) : Session := { s with openReports := s.openReports.tail }

/-- Marks the innermost open report as an error and closes it. -/
def closeError (s : Session) : Session :=
  match s.openReports with
  | [] => s
  | id :: rest => { s with reports := s.reports.markError id, openReports := rest }

def addError (s : Session) (report : Report) : Session :=
  { s.addReport report with reports := (s.addReport report).reports.markError s.reports.size }

/-- Adds an error and makes it the cause of a failure. A report that stands for no failure counts as
exhausted capacity. -/
def fail (s : Session) (report : Report) : Failure × Session :=
  (⟨s.reports.size, report.failureKind?.getD .capacityExhausted⟩, s.addError report)

/-- Opens the report of a job and notes where its scope starts. -/
def enter (s : Session) (report : Report) : Session :=
  { s.openReport report with depths := s.openReports.length :: s.depths }

/-- The number of reports that the innermost job has open, its own included. -/
def scope (s : Session) : Nat := s.openReports.length - s.depths.head?.getD 0

/-- Ends the innermost job: closes the reports that it has open. -/
def leave (s : Session) : Session :=
  { s with openReports := s.openReports.drop s.scope, depths := s.depths.tail }

/-- Ends the innermost job: marks the reports that it has open as errors and closes them. -/
def leaveError (s : Session) : Session :=
  { s with
    reports := (s.openReports.take s.scope).foldl ReportForest.markError s.reports
    openReports := s.openReports.drop s.scope
    depths := s.depths.tail }

def savepoint (s : Session) : Savepoint := ⟨s.ledger.savepoint, s.reservations.mark⟩

/-- Undoes the allocations and reservations made after a savepoint. Reports stay. -/
def rollback (s : Session) (p : Savepoint) : Session :=
  { s with
    ledger := s.ledger.rollback p.applied
    reservations := (s.reservations.truncate p.reservations).2 }

/-- Adds a node and applies the capacity it claims. The key of the node comes with the result. -/
def create (s : Session) (node : Reservation) : Nat × Session :=
  (s.reservations.nextKey,
    { s with
      ledger := match node.kind.claim? with
        | some (resource, usage) => s.ledger.apply resource node.slot usage
        | none => s.ledger
      reservations := s.reservations.insert node })

def resource? (s : Session) (id : ResourceId) : Option Resource := s.registry.get? id

/-- Makes sure that the snapshot of a resource is fresh; tells whether there is such a resource. -/
def ensure (s : Session) (id : ResourceId) : Bool × Session :=
  let result := s.registry.ensure id s.ledger.workingInterval s.inventory
  (result.1, { s with registry := result.2 })

/-- Checks that a resource exists, is allocatable and may be booked for a slot, and has its snapshot
read. Otherwise the report tells why it cannot be used. -/
def checkResource (s : Session) (id : ResourceId) (slot : Slot) :
    Except Report Resource × Session :=
  match s.resource? id with
  | none => (.error (.resourceNotFound id), s)
  | some resource =>
    if !resource.allocatable then (.error (.resourceNotAllocatable id), s)
    else
      let reference := s.ledger.workingInterval.start
      if !resource.isWithinMaximumFuture slot reference then
        (.error (.resourceNotAvailable id ((resource.maximumFutureEnd? reference).getD reference)),
          s)
      else (.ok resource, (s.ensure id).2)

def used (s : Session) (id : ResourceId) (slot : Slot) (dimension : Dimension) : Except Fault Nat :=
  s.registry.used id slot dimension s.ledger

def allocatedValues (s : Session) (id : ResourceId) (slot : Slot) : Except Fault (List String) :=
  s.registry.allocatedValues id slot s.ledger

def attach (s : Session) (parent child : Nat) : Except Fault Session :=
  (s.reservations.attach parent child).map ({ s with reservations := · })

end Session

/-- A step of an allocation: it changes the session, or runs into a fault. -/
abbrev Action (α : Type) := StateT Session (Except Fault) α

/-- A part of an allocation that may fail. -/
abbrev Attempt (α : Type) := ExceptT Failure (StateT Session (Except Fault)) α

namespace Action

/-- Takes a value from the session that may not be there without a fault. -/
def ask {α : Type} (f : Session → Except Fault α) : Action α := fun s => (f s).map (·, s)

/-- Changes the session by a step that may run into a fault. -/
def change (f : Session → Except Fault Session) : Action Unit := fun s => (f s).map ((), ·)

/-- Runs an attempt and hands over its failure as a value. -/
def outcome {α : Type} (a : Attempt α) : Action (Except Failure α) := a

end Action

namespace Attempt

/-- Fails for the reason that a report gives. -/
def refuse {α : Type} (report : Report) : Attempt α := do
  let failure ← modifyGet (·.fail report)
  throw failure

/-- Takes a value from the session that may not be there without a fault. -/
def ask {α : Type} (f : Session → Except Fault α) : Attempt α := ExceptT.lift (Action.ask f)

def fault {α : Type} (f : Fault) : Attempt α := fun _ => .error f

end Attempt

end Conference
