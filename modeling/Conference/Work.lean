import Conference.Allocation.Alias
import Conference.Allocation.Compartment
import Conference.Allocation.Exclusive
import Conference.Allocation.Recording
import Conference.Allocation.Room

/-!
# Work

All kinds of job that a session performs: one for each kind of specification, and the endpoint of a
compartment.
-/

namespace Conference

inductive Work where
  | resource (id : ResourceId)
  | endpoint (id : ResourceId) (label : String)
  | room (spec : RoomSpec)
  | recording (spec : RecordingSpec)
  /-- An alias, for a room on the target if there is one. -/
  | dialAlias (spec : AliasSpec) (target : Option ResourceId)
  | compartment (participants : List Participant)

namespace Work

def job (work : Work) (slot : Slot) : Job :=
  match work with
  | resource id => Exclusive.job id slot
  | endpoint id label => Exclusive.endpointJob id label slot
  | room spec => spec.job slot
  | recording spec => spec.job slot
  | dialAlias spec target => spec.job target slot
  | compartment participants => Compartment.job participants slot

def ofSpecification : Specification → Work
  | .resource id => resource id
  | .room spec => room spec
  | .recording spec => recording spec
  | .dialAlias spec => dialAlias spec none
  | .compartment participants => compartment participants

end Work

end Conference
