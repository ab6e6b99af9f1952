import Conference.Calendar
import Conference.Technology
import Conference.Identifier

/-!
# Reports

What an allocation has to say about its steps. Informational reports describe a step; the others say
why a step could not be completed, and carry the kind of that failure.
-/

namespace Conference

inductive FailureKind where
  /-- Every capable resource is fully used in the requested slot. -/
  | capacityExhausted
  /-- The participants cannot be connected, neither directly nor through a room. -/
  | connectivityInfeasible
  /-- No resource has the required capability or technology. -/
  | capabilityMismatch
  /-- The request itself is malformed. -/
  | invalidRequest
deriving DecidableEq

def FailureKind.render : FailureKind → String
  | capacityExhausted => "capacity exhausted"
  | connectivityInfeasible => "connectivity infeasible"
  | capabilityMismatch => "capability mismatch"
  | invalidRequest => "invalid request"

inductive Report where
  | allocatingResource (resource : ResourceId)
  | allocatingEndpoint (label : String)
  | allocatingRoom (participants : Nat) (technologies : TechnologySet)
  | allocatingAlias (types : AliasTypeSet) (technologies : TechnologySet)
  | allocatingValue (resource : ResourceId)
  | allocatingRecordingService (executable : ExecutableId)
  | allocatingCompartment (participants : Nat)
  | findingAvailableResource
  | checkingResource (resource : ResourceId)
  | resourceAvailable (resource : ResourceId) (available maximum : Nat)
  | sortingResources (order : List ResourceId)
  | lookingUpEndpoint (technologies : TechnologySet)
  | connectingDirectly (origin target : String)
  | bridgingWithRoom (technologies : TechnologySet)
  | slotOutsideWorkingInterval (slot workingInterval : Slot)
  | executableSlotNotContaining (executable : ExecutableId) (executableSlot slot : Slot)
  | tooFewParticipants (participants : Nat)
  | resourceNotFound (resource : ResourceId)
  | resourceNotAllocatable (resource : ResourceId)
  | resourceNotCapable (resource : ResourceId) (capability : String)
  | resourceNotAvailable (resource : ResourceId) (maximumFutureEnd : Int)
  | resourceAlreadyAllocated (resource : ResourceId)
  | resourceCapacityExhausted (resource : ResourceId) (used maximum : Nat)
  | resourceCapacityExceeded (resource : ResourceId) (available requested : Nat)
  | noResourceWithCapability (capability : String)
  | noAvailableResource (capability : String)
  | valueInvalid (resource : ResourceId) (value : String)
  | valueAlreadyAllocated (resource : ResourceId) (value : String)
  | valueNotAvailable (resource : ResourceId)
  | connectionIncompatible (origin target : String)
  | connectionToMultipleEndpoints (origin target : String)
  | noBridgingRoom (technologies : TechnologySet)
  | participantsNotConnected (unreachable : List String)
deriving DecidableEq

namespace Report

def listed (items : List String) : String := ", ".intercalate items

def message : Report → String
  | allocatingResource r => s!"Allocating resource {r.text}."
  | allocatingEndpoint label => s!"Allocating endpoint {label}."
  | allocatingRoom n technologies =>
    s!"Allocating room for {n} participants ({technologies.render})."
  | allocatingAlias types technologies =>
    let kinds := types.render "any type"
    s!"Allocating alias ({kinds}; {technologies.render})."
  | allocatingValue r => s!"Allocating value from {r.text}."
  | allocatingRecordingService e => s!"Allocating recording service for {e.text}."
  | allocatingCompartment n => s!"Allocating compartment with {n} participants."
  | findingAvailableResource => "Finding available resources."
  | checkingResource r => s!"Checking resource {r.text}."
  | resourceAvailable r available maximum =>
    s!"Resource {r.text} has {available} of {maximum} available."
  | sortingResources order =>
    let ids := listed (order.map (·.text))
    s!"Sorting resources by fullness: {ids}."
  | lookingUpEndpoint technologies => s!"Looking up endpoint ({technologies.render})."
  | connectingDirectly origin target => s!"Connecting {origin} directly with {target}."
  | bridgingWithRoom technologies => s!"Bridging participants with a room ({technologies.render})."
  | slotOutsideWorkingInterval slot workingInterval =>
    s!"Requested slot {slot.render} is outside of the working interval {workingInterval.render}."
  | executableSlotNotContaining e executableSlot slot =>
    s!"Requested slot {slot.render} is not inside the slot {executableSlot.render} of {e.text}."
  | tooFewParticipants n =>
    s!"Compartment must have at least two participants, but {n} given."
  | resourceNotFound r => s!"Resource {r.text} was not found."
  | resourceNotAllocatable r => s!"Resource {r.text} is not allocatable."
  | resourceNotCapable r capability => s!"Resource {r.text} does not provide {capability}."
  | resourceNotAvailable r last =>
    let bound := Calendar.render last
    s!"Resource {r.text} is not available for the requested slot.\nMaximum future is "
      ++ bound ++ "."
  | resourceAlreadyAllocated r =>
    s!"Resource {r.text} is already allocated in the requested slot."
  | resourceCapacityExhausted r used maximum =>
    s!"Resource {r.text} has no capacity left ({used} of {maximum} used)."
  | resourceCapacityExceeded r available requested =>
    s!"Resource {r.text} has only {available} available but {requested} requested."
  | noResourceWithCapability capability => s!"No resource provides {capability}."
  | noAvailableResource capability => s!"No available resource was found for {capability}."
  | valueInvalid r value => s!"Value {value} is not valid for {r.text}."
  | valueAlreadyAllocated r value => s!"Value {value} is already allocated in {r.text}."
  | valueNotAvailable r => s!"No value is left in {r.text}."
  | connectionIncompatible origin target =>
    s!"Cannot connect {origin} with {target}, they have no technology in common."
  | connectionToMultipleEndpoints origin target =>
    s!"Cannot connect {origin} with {target} directly, one of them stands for multiple endpoints."
  | noBridgingRoom technologies => s!"No room can bridge the participants ({technologies.render})."
  | participantsNotConnected unreachable =>
    let labels := listed unreachable
    s!"Participants {labels} are not connected with the rest."

/-- A hint for users, next to the message. -/
def help? : Report → Option String
  | resourceNotAvailable .. => some "Request a slot closer to the present."
  | noAvailableResource .. => some "Try a different slot or fewer participants."
  | noBridgingRoom .. => some "Add a room provider that speaks the participants' technologies."
  | tooFewParticipants .. => some "Add participants to the compartment."
  | _ => none

/-- The failure that a report stands for; an informational report stands for none. -/
def failureKind? : Report → Option FailureKind
  | slotOutsideWorkingInterval .. | executableSlotNotContaining .. | tooFewParticipants .. =>
    some .invalidRequest
  | resourceNotFound .. | resourceNotAllocatable .. | resourceNotCapable ..
  | resourceNotAvailable .. | noResourceWithCapability .. | valueInvalid .. =>
    some .capabilityMismatch
  | resourceAlreadyAllocated .. | resourceCapacityExhausted .. | resourceCapacityExceeded ..
  | noAvailableResource .. | valueAlreadyAllocated .. | valueNotAvailable .. =>
    some .capacityExhausted
  | connectionIncompatible .. | connectionToMultipleEndpoints .. | noBridgingRoom ..
  | participantsNotConnected .. =>
    some .connectivityInfeasible
  | _ => none

def resource? : Report → Option ResourceId
  | allocatingResource r | allocatingValue r | checkingResource r | resourceAvailable r _ _
  | resourceNotFound r | resourceNotAllocatable r | resourceNotCapable r _
  | resourceNotAvailable r _ | resourceAlreadyAllocated r | resourceCapacityExhausted r _ _
  | resourceCapacityExceeded r _ _ | valueInvalid r _ | valueAlreadyAllocated r _
  | valueNotAvailable r => some r
  | _ => none

/-! ## Messages -/

theorem append_ne_empty {s t : String} (h : t ≠ "") : s ++ t ≠ "" :=
  fun empty => h (String.append_eq_empty_iff.1 empty).2

/-- Each message ends with a text of its own. -/
theorem message_ne_empty (report : Report) : report.message ≠ "" := by
  cases report
  case findingAvailableResource => decide
  all_goals exact append_ne_empty (by decide)

end Report

end Conference
