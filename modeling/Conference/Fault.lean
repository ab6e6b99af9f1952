import Conference.Identifier
import Conference.Calendar

/-!
# Faults

Breaches of integrity. A fault is no outcome of a request: the operation that runs into one has no
result, and whatever it was changing stays as it was.
-/

namespace Conference

/-- The states of a job, which is performed once. -/
inductive JobState where
  | created
  | succeeded
  | failed
deriving DecidableEq

def JobState.render : JobState → String
  | created => "Created"
  | succeeded => "Succeeded"
  | failed => "Failed"

inductive Fault where
  /-- A node was attached to one that does not exist, or does not exist itself. -/
  | unknownReservation
  | reservationCycle
  /-- A node was attached that has a parent already. -/
  | reservationAlreadyAttached
  /-- A finished tree holds a node outside the slot of its parent. -/
  | slotContainment
  /-- More capacity of a resource is in use than it has. -/
  | negativeAvailableCapacity (resource : ResourceId) (used maximum : Nat)
  /-- The use of a resource was asked for before its committed allocations were read. -/
  | resourceStateMissing (resource : ResourceId)
  | jobAlreadyPerformed (slot : Slot) (state : JobState)
  /-- A count of participants grew out of 32 bits. -/
  | countOverflow
deriving DecidableEq

/-- What the check that found the breach says of it. A sum that grows too large meets no such check:
it is the arithmetic that stops there, and it has nothing to say. -/
def Fault.message? : Fault → Option String
  | unknownReservation => some "ErrorUnknownReservation"
  | reservationCycle => some "ErrorReservationCycle"
  | reservationAlreadyAttached => some "ErrorReservationAlreadyAttached"
  | slotContainment => some "ErrorSlotContainment"
  | negativeAvailableCapacity resource used maximum =>
    some (s!"ErrorNegativeAvailableCapacity: Resource {resource.text} uses {used} of only "
      ++ s!"{maximum} capacity. This signals an error in the implementation.")
  | resourceStateMissing resource =>
    some (s!"ErrorResourceStateMissing: State of resource {resource.text} was queried before "
      ++ "it was refreshed.")
  | jobAlreadyPerformed slot state =>
    some (s!"ErrorTaskAlreadyPerformed: Task for {slot.render} was performed twice "
      ++ s!"(state {state.render}).")
  | countOverflow => none

end Conference
