import Conference.Scenario
import Mathlib.Data.List.Forall2

/-!
# Valid scenario files

What makes a scenario file valid, and which scenario it describes, part by part. Nothing here says
in which order the parts are looked at.
-/

namespace Conference

namespace ScenarioFile

/-! ## Validity -/

/-- The ends are the right way round. -/
def Bounds.Ordered (b : Bounds) : Prop := b.start ≤ b.stop

/-- A local text may name any entity, a global one has to be an identifier of this kind in the
domain. -/
def MayName (domain : String) (kind : GlobalKind) (text : String) : Prop :=
  GlobalId.isGlobal text → ∃ x, GlobalId.parse text = .ok x ∧ x.kind = kind ∧ x.domain = domain

/-- A resource is one of those declared, if any is given. -/
def Known (declared : List String) (resource : Option String) : Prop :=
  ∀ text, resource = some text → text ∈ declared

def CapabilityEntry.IsValid : CapabilityEntry → Prop
  | aliasProvider patterns _ _ _ => ∀ source ∈ patterns, ∃ p, Pattern.parse source = .ok p
  | roomProvider _ | recording _ | terminal _ => True

structure ResourceEntry.IsValid (domain : String) (e : ResourceEntry) : Prop where
  id : MayName domain .resource e.id
  capabilities : ∀ c ∈ e.capabilities, c.IsValid

structure AllocationEntry.IsValid (declared : List String) (e : AllocationEntry) : Prop where
  resource : e.resource ∈ declared
  slot : e.slot.Ordered

def ParticipantEntry.IsValid (declared : List String) : ParticipantEntry → Prop
  | existing resource => resource ∈ declared
  | lookup _ => True
  | external _ count => 0 < count

/-- A resource that is asked for as a whole need not be declared. -/
def SpecificationEntry.IsValid (domain : String) (declared : List String) :
    SpecificationEntry → Prop
  | resource text => MayName domain .resource text
  | room _ _ given aliases => Known declared given ∧ ∀ a ∈ aliases, Known declared a.resource
  | recording executable _ _ given =>
    MayName domain .executable executable.id ∧ executable.slot.Ordered ∧ Known declared given
  | dialAlias entry => Known declared entry.resource
  | compartment participants => ∀ p ∈ participants, p.IsValid declared

structure RequestEntry.IsValid (domain : String) (declared : List String)
    (e : RequestEntry) : Prop where
  id : MayName domain .request e.id
  slot : e.slot.Ordered
  specification : e.specification.IsValid domain declared

/-- The resources that a file declares. -/
def declared (file : ScenarioFile) : List String := file.resources.map (·.id)

structure IsValid (file : ScenarioFile) : Prop where
  domain_ne : file.domain ≠ ""
  domain_colon : ':' ∉ file.domain.toList
  workingInterval : file.workingInterval.Ordered
  resources : ∀ e ∈ file.resources, e.IsValid file.domain
  distinct : file.declared.Nodup
  allocations : ∀ e ∈ file.allocations, e.IsValid file.declared
  requests : ∀ e ∈ file.requests, e.IsValid file.domain file.declared

/-! ## Meaning -/

def Bounds.Describes (b : Bounds) (slot : Slot) : Prop := slot.start = b.start ∧ slot.stop = b.stop

/-- The set has the elements that are listed. -/
def Lists {α : Type} [DecidableEq α] [Listed α] (listed : List α) (set : Selection α) : Prop :=
  ∀ a, a ∈ set ↔ a ∈ listed

def CapabilityEntry.Describes : CapabilityEntry → Capability → Prop
  | aliasProvider patterns acceptsAny templates restricted, c => ∃ pool : Pool,
    c = .aliasProvider ⟨pool, templates, restricted⟩
    ∧ List.Forall₂ (fun source p => Pattern.parse source = .ok p) patterns pool.patterns
    ∧ pool.acceptsAny = acceptsAny
  | roomProvider licenses, c => c = .roomProvider licenses
  | recording licenses, c => c = .recording licenses
  | terminal aliases, c => c = .terminal aliases

structure ResourceEntry.Describes (e : ResourceEntry) (r : Resource) : Prop where
  id : r.id = ⟨e.id⟩
  name : r.name = e.name
  allocatable : r.allocatable = e.allocatable
  maximumFuture : r.maximumFuture = e.maximumFuture
  technologies : Lists e.technologies r.technologies
  capabilities : List.Forall₂ CapabilityEntry.Describes e.capabilities r.capabilities

/-- An allocation is named by its place in the file. -/
structure AllocationEntry.Describes (e : AllocationEntry) (index : Nat)
    (a : Allocation) : Prop where
  id : a.id = ⟨s!"existing/{index}"⟩
  resource : a.resource = ⟨e.resource⟩
  slot : e.slot.Describes a.slot
  usage : a.usage = e.usage

structure AliasEntry.Describes (e : AliasEntry) (spec : AliasSpec) : Prop where
  types : Lists e.types spec.types
  technologies : Lists e.technologies spec.technologies
  value : spec.value = e.value
  resource : spec.resource = e.resource.map Id.mk

def ParticipantEntry.Describes : ParticipantEntry → Participant → Prop
  | existing resource, p => p = .existing ⟨resource⟩
  | lookup technologies, p => ∃ set, p = .lookup set ∧ Lists technologies set
  | external technologies count, p => ∃ set, p = .external set count ∧ Lists technologies set

def SpecificationEntry.Describes : SpecificationEntry → Specification → Prop
  | resource text, spec => spec = .resource ⟨text⟩
  | room participants technologies given aliases, spec => ∃ set specs,
    spec = .room ⟨participants, set, given.map Id.mk, specs⟩ ∧ Lists technologies set
      ∧ List.Forall₂ AliasEntry.Describes aliases specs
  | recording executable enabled licenses given, spec => ∃ slot set,
    spec = .recording ⟨⟨⟨executable.id⟩, slot, set⟩, enabled, licenses, given.map Id.mk⟩
      ∧ executable.slot.Describes slot ∧ Lists executable.technologies set
  | dialAlias entry, spec => ∃ asked, spec = .dialAlias asked ∧ entry.Describes asked
  | compartment entries, spec => ∃ participants, spec = .compartment participants
    ∧ List.Forall₂ ParticipantEntry.Describes entries participants

structure RequestEntry.Describes (e : RequestEntry) (r : Request) : Prop where
  id : r.id = ⟨e.id⟩
  slot : e.slot.Describes r.slot
  specification : e.specification.Describes r.specification

/-- Resources, allocations and requests are those of the file, one by one and in their order. -/
structure Describes (file : ScenarioFile) (s : Scenario) : Prop where
  domain : s.domain = file.domain
  workingInterval : file.workingInterval.Describes s.workingInterval
  inventory_domain : s.inventory.domain = file.domain
  resources : List.Forall₂ ResourceEntry.Describes file.resources s.inventory.resources
  allocations : List.Forall₂ (fun p a => p.1.Describes p.2 a) file.allocations.zipIdx
    s.inventory.allocations
  committed : s.inventory.committed = 0
  requests : List.Forall₂ RequestEntry.Describes file.requests s.requests

end ScenarioFile

end Conference
