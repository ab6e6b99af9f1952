import Conference.Calendar
import Conference.Resource

/-!
# Reservations

The nodes of which an allocation consists: what each of them reserves, for which slot, and the
capacity it claims from its resource.
-/

namespace Conference

inductive Creator where
  | system
  | user
deriving DecidableEq

/-- A link between two participants of a compartment, or a participant and the room, named by their
labels. -/
structure Connection where
  origin : String
  target : String
  technology : Technology
deriving DecidableEq

inductive ReservationKind where
  | resource (resource : ResourceId)
  /-- A participant of a compartment. One from outside the inventory has no resource. -/
  | endpoint (label : String) (resource : Option ResourceId)
    (technologies : TechnologySet) (count : Nat)
  | room (resource : ResourceId) (licenses : Nat) (technologies : TechnologySet)
  /-- A disabled service keeps its node but claims no licenses. -/
  | recordingService (resource : ResourceId) (executable : ExecutableId) (enabled : Bool)
      (licenses : Nat)
  /-- Aliases made from one value, which a child of the node holds. -/
  | aliases (resource : ResourceId) (aliases : List Alias)
  | value (resource : ResourceId) (value : String)
  | compartment (connections : List Connection)
deriving DecidableEq

namespace ReservationKind

/-- The capacity that the node claims, and the resource it claims it from. -/
def claim? : ReservationKind → Option (ResourceId × Usage)
  | resource r => some (r, .exclusive)
  | endpoint _ (some r) _ _ => some (r, .exclusive)
  | endpoint _ none _ _ => none
  | room r licenses _ => some (r, .roomLicenses licenses)
  | recordingService r _ enabled licenses =>
    if enabled then some (r, .recordingLicenses licenses) else none
  | aliases _ _ => none
  | value r v => some (r, .value v)
  | compartment _ => none

def resource? : ReservationKind → Option ResourceId
  | resource r | room r _ _ | recordingService r _ _ _ | aliases r _ | value r _ => some r
  | endpoint _ r _ _ => r
  | compartment _ => none

def connections : ReservationKind → List Connection
  | compartment cs => cs
  | _ => []

def render : ReservationKind → String
  | resource r => s!"resource {r.text}"
  | endpoint label _ technologies count => s!"endpoint {label} ({count}; {technologies.render})"
  | room r licenses technologies =>
    s!"room on {r.text} ({licenses} licenses; {technologies.render})"
  | recordingService r executable enabled licenses =>
    let state := if enabled then "enabled" else "disabled"
    s!"recording service on {r.text} for {executable.text} ({licenses} licenses; {state})"
  | aliases r generated =>
    let shown := Alias.renderAll generated
    s!"alias from {r.text} ({shown})"
  | value r v => s!"value {v} from {r.text}"
  | compartment cs => s!"compartment ({cs.length} connections)"

end ReservationKind

structure Reservation where
  slot : Slot
  kind : ReservationKind
  executable : Option ExecutableId
  creator : Creator
deriving DecidableEq

namespace Reservation

/-- A node that the system creates, attached to no executable. -/
def made (slot : Slot) (kind : ReservationKind) : Reservation := ⟨slot, kind, none, .system⟩

def withExecutable (r : Reservation) (executable : ExecutableId) : Reservation :=
  { r with executable := some executable }

/-- The capacity that a node claims, with the slot it claims it for. -/
def claim? (r : Reservation) : Option (ResourceId × Slot × Usage) :=
  r.kind.claim?.map (fun c => (c.1, r.slot, c.2))

def render (r : Reservation) : String := r.kind.render ++ " " ++ r.slot.render

end Reservation

end Conference
