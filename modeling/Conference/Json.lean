/-!
# JSON values

The values that JSON text denotes, as far as scenario files tell them apart: whole numbers are kept
apart from all others, and the members of an object keep their order and may repeat a key. A text
that is JSON only up to some place has a value as well, which ends there.
-/

namespace Conference

inductive Json where
  | null
  | bool (b : Bool)
  | integer (n : Int)
  /-- A number that is written with a fraction or an exponent, or is a negative zero. -/
  | fraction
  /-- A string that pairs no characters, or a number beyond all floating-point numbers. -/
  | unreadable
  | text (s : String)
  | array (items : List Json)
  /-- A member without a key holds what stands in the place of its key: an unreadable text, or what
  is no text. -/
  | object (members : List (Option String × Json))
  /-- Here the text stops being JSON. All arrays and objects around it end with such a part too. -/
  | broken

namespace Json

/-- Every part of the value is readable, and it nests at most `levels` arrays and objects. -/
def isSound : (levels : Nat) → Json → Bool
  | _, unreadable | _, broken => false
  | 0, array _ | 0, object _ => false
  | levels + 1, array items => items.all (isSound levels)
  | levels + 1, object members => members.all (fun m => m.1.isSome && isSound levels m.2)
  | _, _ => true

end Json

end Conference
