import Conference.Text.Numeral
import Conference.Text.Line
import Conference.Text.Quoted

/-!
# Identifiers

Two layers of identifiers. A typed identifier is any text that names an entity of one kind, so that
texts naming entities of different kinds are not mixed up. A global identifier is a text of the form
`conf:<domain>:<code>:<local>`, whose parts are read and checked here.
-/

namespace Conference

inductive EntityKind where
  | resource
  | request
  | executable
  | allocation
deriving DecidableEq

/-- A text that names an entity of one kind. -/
structure Id (kind : EntityKind) where
  text : String
deriving DecidableEq

abbrev ResourceId := Id .resource
abbrev RequestId := Id .request
abbrev ExecutableId := Id .executable
abbrev AllocationId := Id .allocation

def EntityKind.name : EntityKind → String
  | resource => "ResourceId"
  | request => "RequestId"
  | executable => "ExecutableId"
  | allocation => "AllocationId"

/-- An identifier with its kind, for diagnosis. -/
def Id.describe {kind : EntityKind} (a : Id kind) : String :=
  kind.name ++ ": " ++ Text.quoted a.text

/-- Identifiers are ordered by their texts, character by character. -/
def Id.le {kind : EntityKind} (a b : Id kind) : Bool := !(decide (b.text < a.text))

/-- Puts an identifier in front of the first one that it does not come after. -/
def Id.insertSorted {kind : EntityKind} (a : Id kind) : List (Id kind) → List (Id kind)
  | [] => [a]
  | b :: bs => if a.le b then a :: b :: bs else b :: a.insertSorted bs

def Id.sort {kind : EntityKind} (ids : List (Id kind)) : List (Id kind) :=
  ids.foldr Id.insertSorted []

inductive GlobalKind where
  | resource
  | request
  | reservation
  | executable
deriving DecidableEq

namespace GlobalKind

def all : List GlobalKind := [.resource, .request, .reservation, .executable]

def code : GlobalKind → String
  | resource => "res"
  | request => "req"
  | reservation => "rsv"
  | executable => "exe"

def ofCode? (text : List Char) : Option GlobalKind :=
  all.find? (·.code.toList == text)

end GlobalKind

/-- The part of a global identifier that names an entity within its kind and domain. -/
inductive LocalId where
  | number (n : Nat)
  /-- Addresses every entity of the kind within the domain. -/
  | wildcard
deriving DecidableEq

structure GlobalId where
  domain : String
  kind : GlobalKind
  localId : LocalId
deriving DecidableEq

/-- Why a text is no identifier, or not the one that is expected. -/
inductive IdentifierFault where
  | parts
  | scheme
  | emptyDomain
  | kindCode
  | localId
  | otherKind (expected : GlobalKind)
  | otherDomain (found expected : String)
deriving DecidableEq

def IdentifierFault.message : IdentifierFault → String
  | parts => "expected four ':' separated parts"
  | scheme => "unknown scheme"
  | emptyDomain => "domain is empty"
  | kindCode => "unknown entity type code"
  | localId => "local id is neither a number nor '*'"
  | otherKind expected => "expected an identifier of type '" ++ expected.code ++ "'"
  | otherDomain found expected =>
    "belongs to domain '" ++ found ++ "' instead of '" ++ expected ++ "'"

namespace LocalId

/-- Local numbers fit into 64 bits. -/
def bound : Nat := 18446744073709551616

def read? : List Char → Option LocalId
  | ['*'] => some wildcard
  | cs => (Numeral.readBelow? bound cs).map number

def render : LocalId → List Char
  | number n => Numeral.digits n
  | wildcard => ['*']

end LocalId

namespace GlobalId

def scheme : List Char := ['c', 'o', 'n', 'f']

/-- A text that carries the scheme of global identifiers, whether or not the rest is well formed. -/
def isGlobal (text : String) : Bool := (scheme ++ [':']).isPrefixOf text.toList

/-- Reads the four parts of an identifier. -/
def ofParts : List (List Char) → Except IdentifierFault GlobalId
  | [first, domain, code, rest] =>
    if first ≠ scheme then .error .scheme
    else if domain.isEmpty then .error .emptyDomain
    else match GlobalKind.ofCode? code with
      | none => .error .kindCode
      | some kind => match LocalId.read? rest with
        | none => .error .localId
        | some localId => .ok ⟨String.ofList domain, kind, localId⟩
  | _ => .error .parts

def parse (text : String) : Except IdentifierFault GlobalId :=
  ofParts (Text.partsAt ':' text.toList)

def render (x : GlobalId) : String :=
  String.ofList (scheme ++ ':' :: x.domain.toList ++ ':' :: x.kind.code.toList
    ++ ':' :: x.localId.render)

/-- Checks a text that is to name an entity of kind `expected` in `domain`. A local text passes as
it is. -/
def check (text domain : String) (expected : GlobalKind) : Except IdentifierFault Unit :=
  if isGlobal text then
    match parse text with
    | .error fault => .error fault
    | .ok x =>
      if x.kind ≠ expected then .error (.otherKind expected)
      else if x.domain ≠ domain then .error (.otherDomain x.domain domain)
      else .ok ()
  else .ok ()

end GlobalId

end Conference
