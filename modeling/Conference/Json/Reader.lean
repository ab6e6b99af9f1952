import Conference.Json
import Conference.Rounding
import Conference.Text.Numeral

/-!
# Reading JSON text

`Json.read` reads a JSON value from a text, up to the place where the text is no JSON any more.
`Json.read?` reads a text that holds one JSON value and nothing else but blanks around it.
-/

namespace Conference.Json

open Rounding

def isBlank (c : Char) : Bool := c == ' ' || c == '\n' || c == '\t' || c == '\r'

def skipBlanks (cs : List Char) : List Char := cs.dropWhile isBlank

/-! ## Strings -/

def hexDigit? (c : Char) : Option Nat :=
  if c.isDigit then some (c.toNat - '0'.toNat)
  else if 'a' ≤ c ∧ c ≤ 'f' then some (c.toNat - 'a'.toNat + 10)
  else if 'A' ≤ c ∧ c ≤ 'F' then some (c.toNat - 'A'.toNat + 10)
  else none

def hexUnit? (a b c d : Char) : Option Nat := do
  pure (((← hexDigit? a) * 16 + (← hexDigit? b)) * 256 + ((← hexDigit? c) * 16 + (← hexDigit? d)))

def isHighSurrogate (n : Nat) : Bool := decide (0xD800 ≤ n) && decide (n < 0xDC00)

def isLowSurrogate (n : Nat) : Bool := decide (0xDC00 ≤ n) && decide (n < 0xE000)

/-- The characters of a string so far, in reverse; nothing once a surrogate has lost its partner. A
high surrogate waits for the next unit. -/
structure Spelling where
  chars : Option (List Char)
  high : Option Nat

namespace Spelling

def start : Spelling := ⟨some [], none⟩

/-- A character that is no surrogate. -/
def push (s : Spelling) (c : Char) : Spelling :=
  match s.high with
  | some _ => ⟨none, none⟩
  | none => ⟨s.chars.map (c :: ·), none⟩

def pushUnit (s : Spelling) (n : Nat) : Spelling :=
  match s.high with
  | some high =>
    if isLowSurrogate n then
      ⟨s.chars.map (Char.ofNat (0x10000 + (high - 0xD800) * 0x400 + (n - 0xDC00)) :: ·), none⟩
    else ⟨none, none⟩
  | none =>
    if isHighSurrogate n then ⟨s.chars, some n⟩
    else if isLowSurrogate n then ⟨none, none⟩
    else ⟨s.chars.map (Char.ofNat n :: ·), none⟩

def finish (s : Spelling) : Option String :=
  match s.high with
  | some _ => none
  | none => s.chars.map (fun cs => String.ofList cs.reverse)

end Spelling

def escaped? (c : Char) : Option Char :=
  match c with
  | '"' => some '"'
  | '\\' => some '\\'
  | '/' => some '/'
  | 'b' => some '\x08'
  | 'f' => some '\x0c'
  | 'n' => some '\n'
  | 'r' => some '\r'
  | 't' => some '\t'
  | _ => none

/-- Reads a string after its opening quote. A control character has to be escaped. -/
def readText (s : Spelling) : List Char → Option (Option String × List Char)
  | [] => none
  | '"' :: rest => some (s.finish, rest)
  | '\\' :: 'u' :: a :: b :: c :: d :: rest =>
    match hexUnit? a b c d with
    | some n => readText (s.pushUnit n) rest
    | none => none
  | '\\' :: c :: rest =>
    match escaped? c with
    | some e => readText (s.push e) rest
    | none => none
  | c :: rest => if c.toNat < 0x20 ∨ c = '\\' then none else readText (s.push c) rest

/-! ## Numbers -/

/-- Splits digits off the front. -/
def splitDigits (cs : List Char) : List Char × List Char := cs.span (·.isDigit)

/-- The parts of a number: its digits before and after the point, and its exponent. -/
structure Number where
  negative : Bool
  whole : List Char
  fraction : Option (List Char)
  exponent : Option Int

/-- Splits the digits after a point off the front, if there is a point. -/
def readFraction? (cs : List Char) : Option (Option (List Char) × List Char) :=
  match cs with
  | '.' :: rest =>
    match splitDigits rest with
    | ([], _) => none
    | (digits, rest) => some (some digits, rest)
  | _ => some (none, cs)

def splitSign (cs : List Char) : Bool × List Char :=
  match cs with
  | '-' :: rest => (true, rest)
  | '+' :: rest => (false, rest)
  | _ => (false, cs)

/-- Splits an exponent off the front, if there is one. -/
def readExponent? (cs : List Char) : Option (Option Int × List Char) :=
  match cs with
  | c :: rest =>
    if c = 'e' ∨ c = 'E' then
      let (negative, rest) := splitSign rest
      match splitDigits rest with
      | ([], _) => none
      | (digits, rest) => do
        let n ← Numeral.readPlain? digits
        some (some (if negative then -(n : Int) else n), rest)
    else some (none, cs)
  | [] => some (none, [])

/-- Reads a number without its sign. A leading zero stands alone. -/
def readNumber? (negative : Bool) (cs : List Char) : Option (Number × List Char) :=
  match splitDigits cs with
  | ([], _) => none
  | ('0' :: _ :: _, _) => none
  | (whole, rest) => do
    let (after, rest) ← readFraction? rest
    let (exponent, rest) ← readExponent? rest
    some (⟨negative, whole, after, exponent⟩, rest)

/-- The digits of a number are gathered in a word of 64 bits. -/
def wordBound : Nat := 18446744073709551616

/-- Gathers digits behind those of `n`, up to the first that the word has no room for. That digit
and all after it are left. -/
def gather (n : Nat) : List Char → Nat × List Char
  | [] => (n, [])
  | c :: rest =>
    match (Numeral.digit? c).filter (fun d => decide (10 * n + d < wordBound)) with
    | some d => gather (10 * n + d) rest
    | none => (n, c :: rest)

/-- A number without its sign as a word times a power of ten. Digits for which the word has no room
count as zeros before the point and are left out after it. -/
def Number.scaled (n : Number) : Nat × Int :=
  let after := n.fraction.getD []
  let (whole, unheld) := gather 0 n.whole
  let (digits, dropped) := gather whole after
  (digits, n.exponent.getD 0 + unheld.length + dropped.length - after.length)

/-- The largest exponent for which the power of ten is a floating-point number. -/
def maxExponent : Int := 308

/-- The number `digits * 10 ^ exponent`, computed in floating point, lies beyond all floating-point
numbers. Word and power are rounded before they are multiplied. -/
def overflows (digits : Nat) (exponent : Int) : Bool :=
  if digits = 0 ∨ exponent < 0 then false
  else if maxExponent < exponent then true
  else decide (overflowBound ≤ roundNat digits * roundNat (Nat.pow 10 exponent.toNat))

def Number.value (n : Number) : Json :=
  let digits := (Numeral.readPlain? n.whole).getD 0
  if overflows n.scaled.1 n.scaled.2 then .unreadable
  else if n.fraction.isSome || n.exponent.isSome || (n.negative && digits == 0) then .fraction
  else .integer (if n.negative then -(digits : Int) else digits)

/-! ## Values -/

/-- The value of a text that is no JSON from here on. -/
def breakOff : Json × Option (List Char) := (.broken, none)

def readWord (word : List Char) (value : Json) (cs : List Char) : Json × Option (List Char) :=
  if word.isPrefixOf cs then (value, some (cs.drop word.length)) else breakOff

def readString (cs : List Char) : Json × Option (List Char) :=
  match readText .start cs with
  | some (some s, rest) => (.text s, some rest)
  | some (none, rest) => (.unreadable, some rest)
  | none => breakOff

def readNumber (negative : Bool) (cs : List Char) : Json × Option (List Char) :=
  match readNumber? negative cs with
  | some (n, rest) => (n.value, some rest)
  | none => breakOff

def ofKey (key value : Json) : Option String × Json :=
  match key with
  | .text s => (some s, value)
  | _ => (none, key)

mutual

/-- Reads a value off the front, in at most `steps` steps: the value, and what follows it. Nothing
follows a value in which the text breaks off. -/
def readValue : (steps : Nat) → List Char → Json × Option (List Char)
  | 0, _ => breakOff
  | steps + 1, cs =>
    match skipBlanks cs with
    | 'n' :: rest => readWord ['u', 'l', 'l'] .null rest
    | 't' :: rest => readWord ['r', 'u', 'e'] (.bool true) rest
    | 'f' :: rest => readWord ['a', 'l', 's', 'e'] (.bool false) rest
    | '"' :: rest => readString rest
    | '-' :: rest => readNumber true rest
    | '[' :: rest =>
      match skipBlanks rest with
      | ']' :: rest => (.array [], some rest)
      | _ =>
        let (items, rest) := readItems steps rest
        (.array items, rest)
    | '\x7b' :: rest =>
      match skipBlanks rest with
      | '\x7d' :: rest => (.object [], some rest)
      | _ =>
        let (members, rest) := readMembers steps rest
        (.object members, rest)
    | cs => readNumber false cs

/-- Reads the items of an array that has some, up to the closing bracket. -/
def readItems : (steps : Nat) → List Char → List Json × Option (List Char)
  | 0, _ => ([.broken], none)
  | steps + 1, cs =>
    let (item, rest) := readValue steps cs
    match rest.map skipBlanks with
    | some (',' :: rest) =>
      let (items, rest) := readItems steps rest
      (item :: items, rest)
    | some (']' :: rest) => ([item], some rest)
    | _ => ([item, .broken], none)

/-- Reads the members of an object that has some, up to the closing brace. What stands in the place
of a key is read as a value, whether it is a text or not. -/
def readMembers : (steps : Nat) → List Char → List (Option String × Json) × Option (List Char)
  | 0, _ => ([(none, .broken)], none)
  | steps + 1, cs =>
    let isText := (skipBlanks cs).head? == some '"'
    let (key, rest) := readValue steps cs
    match if isText then rest.map skipBlanks else none with
    | some (':' :: rest) =>
      let (value, rest) := readValue steps rest
      match rest.map skipBlanks with
      | some (',' :: rest) =>
        let (members, rest) := readMembers steps rest
        (ofKey key value :: members, rest)
      | some ('\x7d' :: rest) => ([ofKey key value], some rest)
      | _ => ([ofKey key value, (none, .broken)], none)
    | _ => ([ofKey key .broken, (none, .broken)], none)

end

/-- Reads a value from a text, and tells whether the text holds that value and nothing else. Two
steps suffice for each of its characters. -/
def read (text : String) : Json × Bool :=
  let cs := text.toList
  let (value, rest) := readValue (2 * cs.length + 2) cs
  (value, match rest with
    | some rest => (skipBlanks rest).isEmpty
    | none => false)

def read? (text : String) : Option Json :=
  match read text with
  | (value, true) => some value
  | (_, false) => none

end Conference.Json
