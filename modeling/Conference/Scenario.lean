import Conference.Inventory
import Conference.ScenarioFile

/-!
# Scenarios

Everything that one run of the scheduler needs: the inventory with its committed allocations, the
working interval and the requests in their order. `Scenario.ofFile` checks what a scenario file says
and turns it into a scenario; the first thing wrong, in the order of the file, is why it is refused.
-/

namespace Conference

/-- A part of a scenario that a complaint is about. -/
inductive ScenarioPart where
  | workingInterval
  | allocation (index : Nat)
  | request (id : String)
deriving DecidableEq

def ScenarioPart.render : ScenarioPart → String
  | workingInterval => "working interval"
  | allocation index => s!"allocation #{index}"
  | request id => s!"request '{id}'"

inductive ScenarioFault where
  | invalidDomain (domain : String)
  | invertedSlot (part : ScenarioPart) (start stop : Int)
  | duplicateResource (id : String)
  | unknownResource (part : ScenarioPart) (id : String)
  | noEndpoints (part : ScenarioPart)
  | identifier (text : String) (fault : IdentifierFault)
  | pattern (source : String) (fault : PatternFault)
deriving DecidableEq

namespace ScenarioFault

def invalidIdentifier (text : String) (fault : IdentifierFault) : String :=
  s!"Invalid entity identifier '{text}': {fault.message}"

def invalidPattern (source : String) (fault : PatternFault) : String :=
  s!"Invalid value pattern '{source}': {fault.message}"

def invalidModel (complaint : String) : String :=
  "Failed to build internal domain model: " ++ complaint

def message : ScenarioFault → String
  | invalidDomain domain => invalidModel s!"invalid domain name '{domain}'"
  | invertedSlot part start stop =>
    invalidModel s!"{part.render}: slot start {start} is after its end {stop}"
  | duplicateResource id => invalidModel s!"resource '{id}' is declared twice"
  | unknownResource part id => invalidModel s!"{part.render} references unknown resource '{id}'"
  | noEndpoints part =>
    invalidModel s!"{part.render}: external endpoint count must be positive"
  | identifier text fault => invalidIdentifier text fault
  | pattern source fault => invalidPattern source fault

end ScenarioFault

structure Scenario where
  domain : String
  workingInterval : Slot
  inventory : Inventory
  requests : List Request
deriving DecidableEq

namespace Scenario

open ScenarioFile

abbrev Checked (α : Type) := Except ScenarioFault α

/-- The values that a check gives for all elements of a list, or the first fault. -/
def checkAll {α β : Type} (check : α → Checked β) : List α → Checked (List β)
  | [] => .ok []
  | a :: as => do
    let b ← check a
    let bs ← checkAll check as
    pure (b :: bs)

/-- A name that can stand in identifiers. -/
def isDomain (text : String) : Bool := !text.isEmpty && !text.toList.contains ':'

def slot (part : ScenarioPart) (b : Bounds) : Checked Slot :=
  match Slot.ofBounds? b.start b.stop with
  | some s => .ok s
  | none => .error (.invertedSlot part b.start b.stop)

def checkId (domain text : String) (kind : GlobalKind) : Checked Unit :=
  match GlobalId.check text domain kind with
  | .ok () => .ok ()
  | .error fault => .error (.identifier text fault)

def resourceId (domain text : String) : Checked ResourceId := do
  checkId domain text .resource
  pure ⟨text⟩

/-- A resource that has to be one of the declared ones. -/
def knownResource (domain : String) (known : List String) (part : ScenarioPart) (text : String) :
    Checked ResourceId := do
  let id ← resourceId domain text
  if known.contains text then pure id else throw (.unknownResource part text)

def knownResource? (domain : String) (known : List String) (part : ScenarioPart) :
    Option String → Checked (Option ResourceId)
  | none => .ok none
  | some text => (knownResource domain known part text).map some

def capability : CapabilityEntry → Checked Capability
  | .roomProvider licenses => .ok (.roomProvider licenses)
  | .recording licenses => .ok (.recording licenses)
  | .aliasProvider patterns acceptsAny templates restricted =>
    match Pool.parse patterns acceptsAny with
    | .ok pool => .ok (.aliasProvider ⟨pool, templates, restricted⟩)
    | .error fault => .error (.pattern fault.source fault.cause)
  | .terminal aliases => .ok (.terminal aliases)

/-- A resource after the given ones have been declared. -/
def resource (domain : String) (known : List String) (e : ResourceEntry) : Checked Resource := do
  let id ← resourceId domain e.id
  if known.contains e.id then throw (.duplicateResource e.id)
  else
    let capabilities ← checkAll capability e.capabilities
    pure ⟨id, e.name, e.allocatable, e.maximumFuture, .ofList e.technologies, capabilities⟩

def resources (domain : String) (known : List String) : List ResourceEntry → Checked (List Resource)
  | [] => .ok []
  | e :: es => do
    let r ← resource domain known e
    let rs ← resources domain (e.id :: known) es
    pure (r :: rs)

def existingId (index : Nat) : AllocationId := ⟨s!"existing/{index}"⟩

def allocation (domain : String) (known : List String) (index : Nat) (e : AllocationEntry) :
    Checked Allocation := do
  let id ← knownResource domain known (.allocation index) e.resource
  let slot ← slot (.allocation index) e.slot
  pure ⟨existingId index, id, slot, e.usage⟩

/-- The allocations from an index on. -/
def allocations (domain : String) (known : List String) (index : Nat) :
    List AllocationEntry → Checked (List Allocation)
  | [] => .ok []
  | e :: es => do
    let a ← allocation domain known index e
    let as ← allocations domain known (index + 1) es
    pure (a :: as)

def aliasSpec (domain : String) (known : List String) (part : ScenarioPart) (e : AliasEntry) :
    Checked AliasSpec := do
  let resource ← knownResource? domain known part e.resource
  pure ⟨.ofList e.types, .ofList e.technologies, e.value, resource⟩

def participant (domain : String) (known : List String) (part : ScenarioPart) :
    ParticipantEntry → Checked Participant
  | .existing text => (knownResource domain known part text).map .existing
  | .lookup technologies => .ok (.lookup (.ofList technologies))
  | .external technologies count =>
    if count = 0 then .error (.noEndpoints part) else .ok (.external (.ofList technologies) count)

def specification (domain : String) (known : List String) (part : ScenarioPart) :
    SpecificationEntry → Checked Specification
  | .resource text => (resourceId domain text).map .resource
  | .room participants technologies resource aliases => do
    let resource ← knownResource? domain known part resource
    let aliases ← checkAll (aliasSpec domain known part) aliases
    pure (.room ⟨participants, .ofList technologies, resource, aliases⟩)
  | .recording executable enabled licenses resource => do
    checkId domain executable.id .executable
    let slot ← slot part executable.slot
    let resource ← knownResource? domain known part resource
    pure (.recording
      ⟨⟨⟨executable.id⟩, slot, .ofList executable.technologies⟩, enabled, licenses, resource⟩)
  | .dialAlias entry => (aliasSpec domain known part entry).map .dialAlias
  | .compartment participants =>
    (checkAll (participant domain known part) participants).map .compartment

def request (domain : String) (known : List String) (e : RequestEntry) : Checked Request := do
  checkId domain e.id .request
  let slot ← slot (.request e.id) e.slot
  let specification ← specification domain known (.request e.id) e.specification
  pure ⟨⟨e.id⟩, slot, specification⟩

def ofFile (file : ScenarioFile) : Checked Scenario := do
  if isDomain file.domain then
    let workingInterval ← slot .workingInterval file.workingInterval
    let resources ← resources file.domain [] file.resources
    let known := file.resources.map (·.id)
    let allocations ← allocations file.domain known 0 file.allocations
    let requests ← checkAll (request file.domain known) file.requests
    pure ⟨file.domain, workingInterval, ⟨file.domain, resources, allocations, 0⟩, requests⟩
  else throw (.invalidDomain file.domain)

inductive LoadFault where
  | shape (misfit : Json.Misfit)
  | content (fault : ScenarioFault)
deriving DecidableEq

/-- The scenario that a file with the given contents describes. -/
def ofRead : Except Json.Misfit ScenarioFile → Except LoadFault Scenario
  | .error misfit => .error (.shape misfit)
  | .ok file => match ofFile file with
    | .error fault => .error (.content fault)
    | .ok scenario => .ok scenario

/-- Checks a scenario that is given as a value. -/
def ofJson (j : Json) : Except LoadFault Scenario := ofRead (ScenarioFile.ofJson j)

def load (text : String) : Except LoadFault Scenario := ofRead (ScenarioFile.read text)

end Scenario

end Conference
