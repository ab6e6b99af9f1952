import Conference.Allocation.Survey

/-!
# Recordings

The allocation of a recording service for a meeting. Only an enabled service takes licenses; a
disabled one is placed on the first resource that may be used at all.
-/

namespace Conference.RecordingSpec

/-- What the specification asks for, in words. -/
def capability (spec : RecordingSpec) : String :=
  s!"recording with {spec.licenses} licenses ({spec.executable.technologies.render})"

def isUsable (spec : RecordingSpec) (resource : Resource) : Bool :=
  resource.recording?.isSome && resource.supportsAll spec.executable.technologies

def reserve (spec : RecordingSpec) (slot : Slot) (id : ResourceId) : Action Nat :=
  let kind := .recordingService id spec.executable.id spec.enabled spec.licenses
  modifyGet (·.create ((Reservation.made slot kind).withExecutable spec.executable.id))

/-- Places a disabled service on the first resource that may be used. -/
def tryUnlicensed (spec : RecordingSpec) (slot : Slot) : List ResourceId → Action (Option Nat)
  | [] => pure none
  | id :: ids => do
    match ← modifyGet (·.checkResource id slot) with
    | .ok _ => some <$> spec.reserve slot id
    | .error reason =>
      modify (·.addError reason)
      tryUnlicensed spec slot ids

/-- Places an enabled service on the first candidate with enough licenses. -/
def tryAll (spec : RecordingSpec) (slot : Slot) : List Candidate → Action (Option Nat)
  | [] => pure none
  | candidate :: rest => do
    if candidate.available < spec.licenses then
      modify (·.addError
        (.resourceCapacityExceeded candidate.resource candidate.available spec.licenses))
      tryAll spec slot rest
    else some <$> spec.reserve slot candidate.resource

def place (spec : RecordingSpec) (slot : Slot) (ids : List ResourceId) : Action (Option Nat) := do
  if spec.enabled then
    let candidates ← Survey.candidates spec.resource slot .recordingLicenses ids
    spec.tryAll slot candidates
  else spec.tryUnlicensed slot ids

def allocate (spec : RecordingSpec) (slot : Slot) : Attempt Nat := do
  if spec.executable.slot.contains slot then
    let ids ← Survey.eligible spec.resource slot spec.isUsable spec.capability
    match ← spec.place slot ids with
    | some key => pure key
    | none => Attempt.refuse (.noAvailableResource spec.capability)
  else
    Attempt.refuse (.executableSlotNotContaining spec.executable.id spec.executable.slot slot)

def job (spec : RecordingSpec) (slot : Slot) : Job :=
  .new slot (.allocatingRecordingService spec.executable.id) spec.allocate

end Conference.RecordingSpec
