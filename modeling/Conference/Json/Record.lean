import Conference.Instant
import Conference.Json

/-!
# Records in JSON

How the fields of a record are found in a JSON value. A record is an object with the fields as
members, in any order and among others, or an array of the fields in their order, of which only
trailing ones may be left out. A choice between several kinds of record is made by a member `type`,
or by the first item of the array.

Of several things that are wrong with a text, the first one in the text counts. What does not fit
may come before the place where the text stops being JSON.
-/

namespace Conference.Json

inductive Misfit where
  /-- It is no JSON, holds a part that denotes nothing, or goes on where nothing it has can
  follow. -/
  | malformed
  /-- It is JSON, but of another shape. -/
  | unfit
deriving DecidableEq

/-- A value of another shape than expected. Of an array or an object the first character tells, so
it does not matter whether the text breaks off within. -/
def misfit : Json → Misfit
  | unreadable | broken => .malformed
  | _ => .unfit

/-! ## Simple values -/

def toText : Json → Except Misfit String
  | text s => .ok s
  | j => .error j.misfit

def toBool : Json → Except Misfit Bool
  | bool b => .ok b
  | j => .error j.misfit

def toInt (low high : Int) : Json → Except Misfit Int
  | integer n => if low ≤ n ∧ n ≤ high then .ok n else .error .unfit
  | j => .error j.misfit

/-- An instant that can be named, or a span of time of that size. -/
def toInstant : Json → Except Misfit Int := toInt Instant.least Instant.greatest

/-- The largest count. -/
def maxCount : Int := 4294967295

/-- A number of 32 bits without sign. -/
def toCount (j : Json) : Except Misfit Nat := (j.toInt 0 maxCount).map (·.toNat)

/-- The values of all items, as far as each fits. -/
def toAll {α : Type} (decode : Json → Except Misfit α) : List Json → Except Misfit (List α)
  | [] => .ok []
  | item :: items => do pure ((← decode item) :: (← toAll decode items))

def toList {α : Type} (decode : Json → Except Misfit α) : Json → Except Misfit (List α)
  | array items => toAll decode items
  | j => .error j.misfit

/-! ## Places -/

inductive Place where
  /-- On its own, where it is read for what it should be as it comes. -/
  | plain
  /-- Within a tagged record, all of which is read as JSON before its parts are looked at. -/
  | tagged
deriving DecidableEq

/-- What is wrong where something stands that could not begin or go on there. Read as it comes, it
does not even count as JSON. -/
def Place.stray : Place → Misfit
  | plain => .malformed
  | tagged => .unfit

/-! ## Names -/

/-- Nothing stands beside a name. Within a tagged record an empty object is nothing as well. -/
def isNothing : Place → Json → Bool
  | _, null | .tagged, object [] => true
  | _, _ => false

def ofNamed {α : Type} (ofName : String → Option α) (name : String) : Except Misfit α :=
  match ofName name with
  | some a => .ok a
  | none => .error .unfit

/-- One of several named values: its name, or an object with its name as the only key and nothing
beside it. -/
def toNamed {α : Type} (place : Place) (ofName : String → Option α) : Json → Except Misfit α
  | text s => ofNamed ofName s
  | object ((some s, beside) :: others) => do
    let a ← ofNamed ofName s
    if !isNothing place beside then throw beside.misfit
    else if !others.isEmpty then throw place.stray
    else pure a
  | object ((none, found) :: _) => .error found.misfit
  | _ => .error place.stray

/-! ## Fields -/

/-- What is wrong with a record: which of its parts, counted in their order, and why. What is left
out is found to be missing after all parts. -/
structure Flaw where
  part : Nat
  misfit : Misfit
deriving DecidableEq

def Flaw.earlier (flaw other : Flaw) : Flaw := if other.part < flaw.part then other else flaw

/-- What the fields of a record say, unless it has a flaw. Fields may be asked for in any order: of
all flaws that are met, the first in the record counts. -/
def Reading (α : Type) : Type := Except Flaw α

namespace Reading

/-- A reading of the part with the given number. -/
def ofPart {α : Type} (part : Nat) : Except Misfit α → Reading α
  | .ok a => .ok a
  | .error misfit => .error ⟨part, misfit⟩

def fail {α : Type} (part : Nat) (misfit : Misfit) : Reading α := .error ⟨part, misfit⟩

def seq {α β : Type} : Reading (α → β) → Reading α → Reading β
  | .ok f, .ok a => .ok (f a)
  | .ok _, .error flaw => .error flaw
  | .error flaw, .ok _ => .error flaw
  | .error flaw, .error other => .error (flaw.earlier other)

instance : Applicative Reading where
  pure := .ok
  seq f a := seq f (a ())

def toExcept {α : Type} : Reading α → Except Misfit α
  | .ok a => .ok a
  | .error flaw => .error flaw.misfit

end Reading

/-- The fields of a record, as it is written. -/
inductive Fields where
  | named (members : List (Option String × Json))
  /-- The fields come in the order of their names. -/
  | listed (names : List String) (items : List Json)

/-- What a record says about a field. -/
inductive Field where
  | given (part : Nat) (value : Json)
  /-- The object has no such member. -/
  | missing
  /-- The array ends before the field. -/
  | beyond

namespace Fields

def size : Fields → Nat
  | named members => members.length
  | listed _ items => items.length

def get (name : String) : Fields → Field
  | named members =>
    match members.zipIdx.find? (·.1.1 == some name) with
    | some ((_, value), part) => .given part value
    | none => .missing
  | listed names items =>
    match (names.zip items).zipIdx.find? (·.1.1 == name) with
    | some ((_, value), part) => .given part value
    | none => .beyond

/-- A field that has to be there. -/
def required {α : Type} (fields : Fields) (name : String) (decode : Json → Except Misfit α) :
    Reading α :=
  match fields.get name with
  | .given part j => .ofPart part (decode j)
  | _ => .fail fields.size .unfit

/-- A field that may be missing or `null`. The array form has to hold it. -/
def optional {α : Type} (fields : Fields) (name : String) (decode : Json → Except Misfit α) :
    Reading (Option α) :=
  match fields.get name with
  | .given _ null => pure none
  | .given part j => some <$> .ofPart part (decode j)
  | .missing => pure none
  | .beyond => .fail fields.size .unfit

/-- A field that may be left out, which stands for a default. -/
def defaulted {α : Type} (fields : Fields) (name : String) (default : α)
    (decode : Json → Except Misfit α) : Reading α :=
  match fields.get name with
  | .given part j => .ofPart part (decode j)
  | _ => pure default

end Fields

/-! ## Records -/

/-- The members of an object have readable keys, and of the given keys none comes twice. Members are
counted from `part` on, and the keys in `seen` have come before. -/
def checkMembers (keys : List String) : (part : Nat) → (seen : List String) →
    List (Option String × Json) → Reading Unit
  | _, _, [] => pure ()
  | part, _, (none, _) :: _ => .fail part .malformed
  | part, seen, (some key, _) :: ms =>
    if seen.contains key then .fail part .unfit
    else checkMembers keys (part + 1) (if keys.contains key then key :: seen else seen) ms

/-- An array has no more items than there are fields. -/
def checkItems (place : Place) (names : List String) (items : List Json) : Reading Unit :=
  if items.length ≤ names.length then pure () else .fail names.length place.stray

/-- A record with fields of the given names, made of what they say. -/
def toRecord {α : Type} (place : Place) (names : List String) (build : Fields → Reading α) :
    Json → Except Misfit α
  | object ms => (build (.named ms) <* checkMembers names 0 [] ms).toExcept
  | array items => (build (.listed names items) <* checkItems place names items).toExcept
  | j => .error j.misfit

/-! ## Choices -/

/-- The name of the member that tells which kind of record an object is. -/
def tagName : String := "type"

/-- One of several alternatives: by its name, or also by its number. -/
def toTag {β : Type} (numbered : Bool) (choices : List (String × β)) : Json → Except Misfit β
  | text s =>
    match choices.lookup s with
    | some choice => .ok choice
    | none => .error .unfit
  | integer (.ofNat n) =>
    match if numbered then choices[n]? else none with
    | some (_, choice) => .ok choice
    | none => .error .unfit
  | j => .error j.misfit

/-- The tag among the members of an object, and the other members. All of these have to be readable,
nested in at most `levels` levels. The tag is looked at as it comes; `tag` is one that has come
before. -/
def splitTag {β : Type} (levels : Nat) (decode : Json → Except Misfit β) (tag : Option β) :
    List (Option String × Json) → Except Misfit (β × List (Option String × Json))
  | [] =>
    match tag with
    | some choice => .ok (choice, [])
    | none => .error .unfit
  | (none, _) :: _ => .error .malformed
  | (some key, value) :: ms =>
    if key = tagName then
      match tag with
      | some _ => .error .unfit
      | none => do splitTag levels decode (some (← decode value)) ms
    else if value.isSound levels then do
      let (choice, others) ← splitTag levels decode tag ms
      pure (choice, (some key, value) :: others)
    else .error .malformed

/-- A tagged record: its tag chooses what is made of the record without it. The record is nested in
at most `levels` levels. -/
def toChoice {α : Type} (levels : Nat) (numbered : Bool)
    (choices : List (String × (Json → Except Misfit α))) (j : Json) : Except Misfit α :=
  match levels, j with
  | 0, array _ | 0, object _ => .error .malformed
  | levels + 1, object ms => do
    let (decode, others) ← splitTag levels (toTag numbered choices) none ms
    decode (object others)
  | levels + 1, array (tag :: items) => do
    let decode ← toTag numbered choices tag
    if items.all (isSound levels) then decode (array items) else .error .malformed
  | _, j => .error j.misfit

/-- A tagged record without any fields: an object, whatever its members, or an array of its tag
alone. -/
def toUnit : Json → Except Misfit Unit
  | object _ | array [] => .ok ()
  | j => .error j.misfit

end Conference.Json
