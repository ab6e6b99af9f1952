import Conference.Request
import Conference.Json.Record
import Conference.Json.Reader

/-!
# Scenario files

What a scenario file says, before anything in it is checked: identifiers and patterns are mere
texts, and slots may have their ends the wrong way round. `ScenarioFile.read` reads a file from its
text.
-/

namespace Conference

namespace ScenarioFile

structure Bounds where
  start : Int
  stop : Int
deriving DecidableEq

inductive CapabilityEntry where
  | roomProvider (licenses : Nat)
  | recording (licenses : Nat)
  | aliasProvider (patterns : List String) (acceptsAny : Bool) (templates : List AliasTemplate)
      (restricted : Bool)
  | terminal (aliases : List Alias)
deriving DecidableEq

structure ResourceEntry where
  id : String
  name : String
  allocatable : Bool
  maximumFuture : Option Int
  technologies : List Technology
  capabilities : List CapabilityEntry
deriving DecidableEq

/-- An allocation that is committed before the scenario starts. -/
structure AllocationEntry where
  resource : String
  slot : Bounds
  usage : Usage
deriving DecidableEq

structure AliasEntry where
  types : List AliasType
  technologies : List Technology
  value : Option String
  resource : Option String
deriving DecidableEq

structure ExecutableEntry where
  id : String
  slot : Bounds
  technologies : List Technology
deriving DecidableEq

inductive ParticipantEntry where
  | existing (resource : String)
  | lookup (technologies : List Technology)
  | external (technologies : List Technology) (count : Nat)
deriving DecidableEq

inductive SpecificationEntry where
  | resource (resource : String)
  | room (participants : Nat) (technologies : List Technology) (resource : Option String)
      (aliases : List AliasEntry)
  | recording (executable : ExecutableEntry) (enabled : Bool) (licenses : Nat)
      (resource : Option String)
  | dialAlias (entry : AliasEntry)
  | compartment (participants : List ParticipantEntry)
deriving DecidableEq

structure RequestEntry where
  id : String
  slot : Bounds
  specification : SpecificationEntry
deriving DecidableEq

end ScenarioFile

structure ScenarioFile where
  domain : String
  workingInterval : ScenarioFile.Bounds
  resources : List ScenarioFile.ResourceEntry
  allocations : List ScenarioFile.AllocationEntry
  requests : List ScenarioFile.RequestEntry
deriving DecidableEq

namespace ScenarioFile

open Json

/-- Nesting of a value is limited to this many levels, counted from the whole file. -/
def maxLevels : Nat := 127

def bounds (place : Place) : Json → Except Misfit Bounds :=
  toRecord place ["start", "end"] fun fields =>
    Bounds.mk <$> fields.required "start" toInstant <*> fields.required "end" toInstant

def technologies (place : Place) : Json → Except Misfit (List Technology) :=
  toList (toNamed place Technology.ofCode?)

/-- Kinds of alias are only named within tagged records. -/
def aliasType : Json → Except Misfit AliasType := toNamed .tagged AliasType.ofCode?

def template : Json → Except Misfit AliasTemplate :=
  toRecord .tagged ["aliasType", "pattern"] fun fields =>
    AliasTemplate.mk <$> fields.required "aliasType" aliasType <*> fields.required "pattern" toText

def terminalAlias : Json → Except Misfit Alias :=
  toRecord .tagged ["aliasType", "value"] fun fields =>
    Alias.mk <$> fields.required "aliasType" aliasType <*> fields.required "value" toText

/-- A capability lies four levels deep in a file. -/
def capability : Json → Except Misfit CapabilityEntry :=
  toChoice (maxLevels - 4) false [
    ("roomProvider", toRecord .tagged ["licenseCount"] fun fields =>
      .roomProvider <$> fields.required "licenseCount" toCount),
    ("recording", toRecord .tagged ["licenseCount"] fun fields =>
      .recording <$> fields.required "licenseCount" toCount),
    ("aliasProvider", toRecord .tagged
        ["valuePatterns", "allowAnyRequestedValue", "aliases", "restrictedToResource"] fun fields =>
      .aliasProvider
        <$> fields.required "valuePatterns" (toList toText)
        <*> fields.defaulted "allowAnyRequestedValue" false toBool
        <*> fields.required "aliases" (toList template)
        <*> fields.defaulted "restrictedToResource" false toBool),
    ("terminal", toRecord .tagged ["aliases"] fun fields =>
      .terminal <$> fields.defaulted "aliases" [] (toList terminalAlias))]

def resource : Json → Except Misfit ResourceEntry :=
  toRecord .plain ["id", "name", "allocatable", "maximumFuture", "technologies",
    "capabilities"] fun fields =>
    ResourceEntry.mk
      <$> fields.required "id" toText
      <*> fields.required "name" toText
      <*> fields.defaulted "allocatable" true toBool
      <*> fields.optional "maximumFuture" toInstant
      <*> fields.defaulted "technologies" [] (technologies .plain)
      <*> fields.defaulted "capabilities" [] (toList capability)

/-- The use of a resource lies three levels deep in a file. -/
def usage : Json → Except Misfit Usage :=
  toChoice (maxLevels - 3) false [
    ("exclusive", fun rest => (fun _ => .exclusive) <$> rest.toUnit),
    ("roomLicenses", toRecord .tagged ["count"] fun fields =>
      .roomLicenses <$> fields.required "count" toCount),
    ("recordingLicenses", toRecord .tagged ["count"] fun fields =>
      .recordingLicenses <$> fields.required "count" toCount),
    ("value", toRecord .tagged ["value"] fun fields => .value <$> fields.required "value" toText)]

def allocation : Json → Except Misfit AllocationEntry :=
  toRecord .plain ["resourceId", "slot", "usage"] fun fields =>
    AllocationEntry.mk
      <$> fields.required "resourceId" toText
      <*> fields.required "slot" (bounds .plain)
      <*> fields.required "usage" usage

def aliasSpec : Json → Except Misfit AliasEntry :=
  toRecord .tagged ["aliasTypes", "technologies", "value", "resourceId"] fun fields =>
    AliasEntry.mk
      <$> fields.defaulted "aliasTypes" [] (toList aliasType)
      <*> fields.defaulted "technologies" [] (technologies .tagged)
      <*> fields.optional "value" toText
      <*> fields.optional "resourceId" toText

def executable : Json → Except Misfit ExecutableEntry :=
  toRecord .tagged ["id", "slot", "technologies"] fun fields =>
    ExecutableEntry.mk
      <$> fields.required "id" toText
      <*> fields.required "slot" (bounds .tagged)
      <*> fields.defaulted "technologies" [] (technologies .tagged)

/-- As a record within another tagged one, a participant may also give its kind by its number. -/
def participant : Json → Except Misfit ParticipantEntry :=
  toChoice maxLevels true [
    ("existingEndpoint", toRecord .tagged ["resourceId"] fun fields =>
      .existing <$> fields.required "resourceId" toText),
    ("lookupEndpoint", toRecord .tagged ["technologies"] fun fields =>
      .lookup <$> fields.defaulted "technologies" [] (technologies .tagged)),
    ("externalEndpoint", toRecord .tagged ["technologies", "count"] fun fields =>
      .external
        <$> fields.defaulted "technologies" [] (technologies .tagged)
        <*> fields.defaulted "count" 1 toCount)]

/-- A specification lies three levels deep in a file. -/
def specification : Json → Except Misfit SpecificationEntry :=
  toChoice (maxLevels - 3) false [
    ("resource", toRecord .tagged ["resourceId"] fun fields =>
      .resource <$> fields.required "resourceId" toText),
    ("room", toRecord .tagged ["participantCount", "technologies", "resourceId",
      "aliases"] fun fields =>
      .room
        <$> fields.required "participantCount" toCount
        <*> fields.defaulted "technologies" [] (technologies .tagged)
        <*> fields.optional "resourceId" toText
        <*> fields.defaulted "aliases" [] (toList aliasSpec)),
    ("recordingService", toRecord .tagged ["executable", "enabled", "licenseCount",
      "resourceId"] fun fields =>
      .recording
        <$> fields.required "executable" executable
        <*> fields.defaulted "enabled" true toBool
        <*> fields.defaulted "licenseCount" 1 toCount
        <*> fields.optional "resourceId" toText),
    ("alias", fun rest => .dialAlias <$> aliasSpec rest),
    ("compartment", toRecord .tagged ["participants"] fun fields =>
      .compartment <$> fields.required "participants" (toList participant))]

def request : Json → Except Misfit RequestEntry :=
  toRecord .plain ["id", "slot", "specification"] fun fields =>
    RequestEntry.mk
      <$> fields.required "id" toText
      <*> fields.required "slot" (bounds .plain)
      <*> fields.required "specification" specification

def ofJson : Json → Except Misfit ScenarioFile :=
  toRecord .plain ["domain", "workingInterval", "resources", "allocations",
    "requests"] fun fields =>
    ScenarioFile.mk
      <$> fields.required "domain" toText
      <*> fields.required "workingInterval" (bounds .plain)
      <*> fields.required "resources" (toList resource)
      <*> fields.defaulted "allocations" [] (toList allocation)
      <*> fields.defaulted "requests" [] (toList request)

/-- Reads a scenario file. Whatever follows the file in the text is looked at last. -/
def read (text : String) : Except Misfit ScenarioFile := do
  let (value, whole) := Json.read text
  let file ← ofJson value
  if whole then pure file else throw .malformed

end ScenarioFile

end Conference
