import Conference.Resource

/-!
# Requests

What users ask for: a specification of what is to be allocated, and the slot to allocate it for.
-/

namespace Conference

/-- An alias. Empty selections ask for nothing in particular. -/
structure AliasSpec where
  types : AliasTypeSet
  technologies : TechnologySet
  /-- The value to hand out, instead of the first free one. -/
  value : Option String
  /-- The provider to take it from, instead of any. -/
  resource : Option ResourceId
deriving DecidableEq

/-- A virtual room in which every participant can speak all of the technologies. -/
structure RoomSpec where
  participants : Nat
  technologies : TechnologySet
  resource : Option ResourceId
  aliases : List AliasSpec
deriving DecidableEq

structure Executable where
  id : ExecutableId
  slot : Slot
  technologies : TechnologySet
deriving DecidableEq

structure RecordingSpec where
  executable : Executable
  /-- A service that is not enabled takes no licenses. -/
  enabled : Bool
  licenses : Nat
  resource : Option ResourceId
deriving DecidableEq

inductive Participant where
  /-- A given terminal of the inventory. -/
  | existing (resource : ResourceId)
  /-- Any free terminal that speaks one of the technologies. -/
  | lookup (technologies : TechnologySet)
  /-- A number of endpoints outside the inventory, such as people who dial in. -/
  | external (technologies : TechnologySet) (count : Nat)
deriving DecidableEq

/-- The number of endpoints that a participant stands for. -/
def Participant.count : Participant → Nat
  | existing _ | lookup _ => 1
  | external _ count => count

inductive Specification where
  | resource (resource : ResourceId)
  | room (spec : RoomSpec)
  | recording (spec : RecordingSpec)
  | dialAlias (spec : AliasSpec)
  | compartment (participants : List Participant)
deriving DecidableEq

/-- The name of the kind of a specification. -/
def Specification.kindName : Specification → String
  | resource _ => "resource"
  | room _ => "room"
  | recording _ => "recording_service"
  | dialAlias _ => "alias"
  | compartment _ => "compartment"

structure Request where
  id : RequestId
  slot : Slot
  specification : Specification
deriving DecidableEq

end Conference
