import Conference.Allocation.Alias

/-!
# Rooms

The allocation of a virtual room on a room provider, together with its aliases. If an alias cannot
be allocated the next provider is tried.
-/

namespace Conference.RoomSpec

/-- What the specification asks for, in words. -/
def capability (spec : RoomSpec) : String :=
  s!"a room for {spec.participants} participants ({spec.technologies.render})"

def isUsable (spec : RoomSpec) (resource : Resource) : Bool :=
  resource.roomProvider?.isSome && resource.supportsAll spec.technologies

/-- Allocates aliases for a room on a resource, as children of its node. -/
def addAliases (slot : Slot) (host : ResourceId) (room : Nat) : List AliasSpec → Attempt Unit
  | [] => pure ()
  | spec :: specs => do
    let _ ← (spec.job (some host) slot).runUnder room
    addAliases slot host room specs

/-- Tries to place the room on a candidate. What was made for it is undone if that fails. -/
def place (spec : RoomSpec) (slot : Slot) (candidate : Candidate) : Action (Option Nat) := do
  let id := candidate.resource
  modify (·.openReport (.allocatingResource id))
  let used ← Action.ask (·.used id slot .roomLicenses)
  let available := candidate.maximum - used
  if available < spec.participants then
    modify (·.addError (.resourceCapacityExceeded id available spec.participants))
    modify (·.closeError)
    pure none
  else
    let savepoint := (← get).savepoint
    let room ← modifyGet (·.create (.made slot (.room id spec.participants spec.technologies)))
    match ← Action.outcome (addAliases slot id room spec.aliases) with
    | .error _ =>
      modify (·.rollback savepoint)
      modify (·.closeError)
      pure none
    | .ok _ =>
      modify (·.closeReport)
      pure (some room)

def tryAll (spec : RoomSpec) (slot : Slot) : List Candidate → Action (Option Nat)
  | [] => pure none
  | candidate :: rest => do
    match ← spec.place slot candidate with
    | some key => pure (some key)
    | none => tryAll spec slot rest

def allocate (spec : RoomSpec) (slot : Slot) : Attempt Nat := do
  let ids ← Survey.eligible spec.resource slot spec.isUsable spec.capability
  let candidates ← Survey.candidates spec.resource slot .roomLicenses ids
  match ← spec.tryAll slot candidates with
  | some key => pure key
  | none => Attempt.refuse (.noAvailableResource spec.capability)

def job (spec : RoomSpec) (slot : Slot) : Job :=
  .new slot (.allocatingRoom spec.participants spec.technologies) spec.allocate

end Conference.RoomSpec
