import Conference.Instant
import Conference.Slot
import Conference.Technology
import Conference.Identifier
import Conference.Value.Pool
import Conference.Text.Line

/-!
# Resources

The devices that conferences use: what each of them can do, which technologies it speaks, and how
much of each kind of capacity it has.
-/

namespace Conference

/-- The independent dimensions in which a resource is used. Use in one never limits another. -/
inductive Dimension where
  /-- The whole resource; its capacity is one. -/
  | exclusive
  | roomLicenses
  | recordingLicenses
  /-- The values of an alias provider, one unit for each value handed out. -/
  | values
deriving DecidableEq

def Dimension.render : Dimension → String
  | exclusive => "exclusive use"
  | roomLicenses => "room licenses"
  | recordingLicenses => "recording licenses"
  | values => "values"

inductive Usage where
  | exclusive
  | roomLicenses (count : Nat)
  | recordingLicenses (count : Nat)
  | value (value : String)
deriving DecidableEq

namespace Usage

def dimension : Usage → Dimension
  | exclusive => .exclusive
  | roomLicenses _ => .roomLicenses
  | recordingLicenses _ => .recordingLicenses
  | value _ => .values

/-- The units of capacity that are taken up. -/
def units : Usage → Nat
  | exclusive | value _ => 1
  | roomLicenses count | recordingLicenses count => count

def value? : Usage → Option String
  | value v => some v
  | _ => none

end Usage

/-- The use of one resource during one slot: committed in an inventory, or tentative during a
pass. -/
structure Allocation where
  id : AllocationId
  resource : ResourceId
  slot : Slot
  usage : Usage
deriving DecidableEq

/-- An alias with a gap for a value, such as `950{value}`. -/
structure AliasTemplate where
  type : AliasType
  pattern : String
deriving DecidableEq

namespace AliasTemplate

def technology? (t : AliasTemplate) : Option Technology := t.type.technology?

/-- The text that marks the gap of a template. -/
def gap : String := "\x7bvalue\x7d"

def generate (t : AliasTemplate) (value : String) : Alias :=
  ⟨t.type, Text.substitute gap value t.pattern⟩

end AliasTemplate

structure AliasProvider where
  pool : Pool
  templates : List AliasTemplate
  /-- Aliases go only to rooms on the very same resource. -/
  restricted : Bool
deriving DecidableEq

namespace AliasProvider

/-- The template has one of the kinds and one of the technologies that are asked for. An empty
selection asks for nothing in particular, and a template without technology fits every selection of
them. -/
def fits (types : AliasTypeSet) (technologies : TechnologySet) (t : AliasTemplate) : Bool :=
  (types.isEmpty || types.contains t.type)
    && match t.technology? with
      | some technology => technologies.isEmpty || technologies.contains technology
      | none => true

def matching (p : AliasProvider) (types : AliasTypeSet) (technologies : TechnologySet) :
    List AliasTemplate :=
  p.templates.filter (fits types technologies)

/-- Some template fits, each kind of alias that is asked for is among those that fit, and so is, if
any technologies are asked for, one of these. -/
def canProvide (p : AliasProvider) (types : AliasTypeSet) (technologies : TechnologySet) : Bool :=
  let found := p.matching types technologies
  !found.isEmpty
    && types.toList.all (fun type => found.any (·.type == type))
    && (technologies.isEmpty
      || found.any (fun t => match t.technology? with
        | some technology => technologies.contains technology
        | none => false))

end AliasProvider

inductive Capability where
  | roomProvider (licenses : Nat)
  | recording (licenses : Nat)
  | aliasProvider (provider : AliasProvider)
  | terminal (aliases : List Alias)
deriving DecidableEq

structure Resource where
  id : ResourceId
  name : String
  allocatable : Bool
  /-- How many seconds after the reference time the resource may be booked; no bound if absent. -/
  maximumFuture : Option Int
  technologies : TechnologySet
  capabilities : List Capability
deriving DecidableEq

namespace Resource

/-- A resource that can be allocated, without bound in time and without any capability. -/
def plain (id : ResourceId) (name : String) : Resource where
  id := id
  name := name
  allocatable := true
  maximumFuture := none
  technologies := .empty
  capabilities := []

/-- The license count of the first capability to host rooms. -/
def roomProvider? (r : Resource) : Option Nat :=
  r.capabilities.findSome? fun
    | .roomProvider licenses => some licenses
    | _ => none

/-- The license count of the first capability to record. -/
def recording? (r : Resource) : Option Nat :=
  r.capabilities.findSome? fun
    | .recording licenses => some licenses
    | _ => none

def aliasProvider? (r : Resource) : Option AliasProvider :=
  r.capabilities.findSome? fun
    | .aliasProvider provider => some provider
    | _ => none

def terminal? (r : Resource) : Option (List Alias) :=
  r.capabilities.findSome? fun
    | .terminal aliases => some aliases
    | _ => none

def supportsAll (r : Resource) (technologies : TechnologySet) : Bool :=
  technologies.isSubset r.technologies

def supportsAny (r : Resource) (technologies : TechnologySet) : Bool :=
  technologies.isEmpty || technologies.meets r.technologies

/-- The last instant up to which the resource may be booked. -/
def maximumFutureEnd? (r : Resource) (reference : Int) : Option Int :=
  r.maximumFuture.map (fun future => Instant.clamp (reference + future))

def isWithinMaximumFuture (r : Resource) (slot : Slot) (reference : Int) : Bool :=
  match r.maximumFutureEnd? reference with
  | some last => decide (slot.stop ≤ last)
  | none => true

/-- The total capacity in one dimension, if the resource has the capability that goes with it. -/
def capacity? (r : Resource) : Dimension → Option Nat
  | .exclusive => some 1
  | .roomLicenses => r.roomProvider?
  | .recordingLicenses => r.recording?
  | .values => r.aliasProvider?.map (·.pool.capacity)

end Resource

end Conference
