import Conference.Allocation.Survey

/-!
# Exclusive use

The allocation of a whole resource that is given by name. As an endpoint of a compartment it has to
be a terminal.
-/

namespace Conference.Exclusive

/-- The node for a resource, or for an endpoint with a label. -/
def node (id : ResourceId) (label : Option String) (technologies : TechnologySet) :
    ReservationKind :=
  match label with
  | some label => .endpoint label (some id) technologies 1
  | none => .resource id

def allocate (id : ResourceId) (label : Option String) (slot : Slot) : Attempt Nat := do
  match ← modifyGet (·.checkResource id slot) with
  | .error reason => Attempt.refuse reason
  | .ok resource =>
    if label.isSome && resource.terminal?.isNone then
      Attempt.refuse (.resourceNotCapable id "a terminal")
    else
      let used ← Attempt.ask (·.used id slot .exclusive)
      if 0 < used then Attempt.refuse (.resourceAlreadyAllocated id)
      else modifyGet (·.create (.made slot (node id label resource.technologies)))

def job (id : ResourceId) (slot : Slot) : Job :=
  .new slot (.allocatingResource id) (allocate id none)

def endpointJob (id : ResourceId) (label : String) (slot : Slot) : Job :=
  .new slot (.allocatingEndpoint label) (allocate id (some label))

end Conference.Exclusive
