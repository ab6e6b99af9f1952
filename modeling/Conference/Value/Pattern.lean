import Conference.Text.Numeral

/-!
# Value patterns

A pattern such as `950{digit:3}` stands for the texts that arise by filling each of its gaps with a
fixed number of digits. `Pattern.parse` reads a pattern, `Pattern.admits` decides whether a text is
one of its values, and `Pattern.valueAt` enumerates the values, the last gap varying fastest.
-/

namespace Conference

/-- A piece of a pattern: fixed text, or a gap for a number of digits. -/
inductive Pattern.Part where
  | literal (text : List Char)
  | digits (width : Nat)
deriving DecidableEq

/-- A pattern together with the text it was read from. -/
structure Pattern where
  source : String
  parts : List Pattern.Part
deriving DecidableEq

inductive PatternFault where
  | unterminated
  | unsupported (placeholder : String)
  | empty
deriving DecidableEq

def PatternFault.message : PatternFault → String
  | unterminated => "unterminated placeholder"
  | unsupported placeholder => "unsupported placeholder '\x7b" ++ placeholder ++ "\x7d'"
  | empty => "pattern is empty"

namespace Pattern

def openBrace : Char := '\x7b'

def closeBrace : Char := '\x7d'

/-- What stands in front of the width of a gap. -/
def gapKeyword : List Char := ['d', 'i', 'g', 'i', 't', ':']

/-- Gaps have one to eighteen digits. -/
def maxWidth : Nat := 18

/-- The width of the gap that a placeholder describes. -/
def width? (placeholder : List Char) : Option Nat :=
  if gapKeyword.isPrefixOf placeholder then
    (Numeral.read? (placeholder.drop gapKeyword.length)).filter
      (fun n => decide (1 ≤ n) && decide (n ≤ maxWidth))
  else none

/-- The part for a run of fixed text, if there is any text. -/
def literal? (text : List Char) : List Part :=
  if text.isEmpty then [] else [.literal text]

/-- Reads the parts of the rest of a pattern, after the fixed text `text` and, when a placeholder
has been opened, after its characters so far. -/
def parseParts (text : List Char) : Option (List Char) → List Char → Except PatternFault (List Part)
  | none, [] => .ok (literal? text)
  | some _, [] => .error .unterminated
  | none, c :: rest =>
    if c = openBrace then parseParts text (some []) rest
    else parseParts (text ++ [c]) none rest
  | some placeholder, c :: rest =>
    if c = closeBrace then
      match width? placeholder with
      | none => .error (.unsupported (String.ofList placeholder))
      | some n => (parseParts [] none rest).map (fun parts => literal? text ++ .digits n :: parts)
    else parseParts text (some (placeholder ++ [c])) rest

/-- Reads a pattern. A pattern without any part is refused. -/
def parse (source : String) : Except PatternFault Pattern :=
  match parseParts [] none source.toList with
  | .error fault => .error fault
  | .ok [] => .error .empty
  | .ok (part :: parts) => .ok ⟨source, part :: parts⟩

/-- The largest number of 64 bits. -/
def maxCount : Nat := 18446744073709551615

/-- The number of values of a list of parts. -/
def count : List Part → Nat
  | [] => 1
  | .literal _ :: parts => count parts
  | .digits n :: parts => Nat.pow 10 n * count parts

/-- The number of values of a pattern, as far as 64 bits can say. -/
def capacity (p : Pattern) : Nat :=
  let n := count p.parts
  if n ≤ maxCount then n else maxCount

/-- The value at a position of the enumeration: the gaps, read together, are the digits of the
position. -/
def fill (index : Nat) : List Part → List Char
  | [] => []
  | .literal text :: parts => text ++ fill index parts
  | .digits n :: parts => Numeral.padded n (index / count parts % Nat.pow 10 n) ++ fill index parts

def valueAt (p : Pattern) (index : Nat) : String := String.ofList (fill index p.parts)

def values (p : Pattern) : List String := (List.range p.capacity).map p.valueAt

/-- At most `size` values from position `start` on. -/
def window (p : Pattern) (start size : Nat) : List String :=
  (List.range' start (Nat.min size (p.capacity - start))).map p.valueAt

/-- Decides whether a text fills the parts. -/
def fills : List Part → List Char → Bool
  | [], text => text.isEmpty
  | .literal fixed :: parts, text =>
    fixed.isPrefixOf text && fills parts (text.drop fixed.length)
  | .digits n :: parts, text =>
    decide (n ≤ text.length) && (text.take n).all (·.isDigit) && fills parts (text.drop n)

def admits (p : Pattern) (value : String) : Bool := fills p.parts value.toList

/-- The first of `remaining` values from position `index` on that is not in use. -/
def firstFreeFrom (p : Pattern) (used : List String) : (remaining index : Nat) → Option String
  | 0, _ => none
  | remaining + 1, index =>
    let value := p.valueAt index
    if used.contains value then firstFreeFrom p used remaining (index + 1) else some value

/-- The first value that is not in use. The search stops at it, however many values there are. -/
def firstFree? (p : Pattern) (used : List String) : Option String :=
  firstFreeFrom p used p.capacity 0

end Pattern

end Conference
