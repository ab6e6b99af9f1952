/-!
# Decimal numerals

Reading and writing natural numbers in decimal. A numeral read from text has one or more ASCII
digits, leading zeros included, and at most one `+` in front; a numeral written has no leading zeros
unless it is padded to a width.
-/

namespace Conference.Numeral

def digit? (c : Char) : Option Nat :=
  if c.isDigit then some (c.toNat - '0'.toNat) else none

/-- The value of a run of digits that continues a numeral worth `acc` so far. -/
def readDigits? (acc : Nat) : List Char → Option Nat
  | [] => some acc
  | c :: rest => do readDigits? (10 * acc + (← digit? c)) rest

/-- The number that one or more digits spell. -/
def readPlain? : List Char → Option Nat
  | [] => none
  | cs => readDigits? 0 cs

/-- The number that digits spell after an optional `+`. -/
def read? : List Char → Option Nat
  | '+' :: cs => readPlain? cs
  | cs => readPlain? cs

/-- The number below `bound` that digits spell after an optional `+`. -/
def readBelow? (bound : Nat) (cs : List Char) : Option Nat :=
  (read? cs).filter (decide <| · < bound)

/-- The integer that digits spell after an optional sign. -/
def readSigned? : List Char → Option Int
  | '-' :: cs => (readPlain? cs).map (fun n => -(n : Int))
  | cs => (read? cs).map Int.ofNat

def digits (n : Nat) : List Char := Nat.toDigits 10 n

theorem digits_injective {m n : Nat} (same : digits m = digits n) : m = n := by
  unfold digits at same
  rw [← Nat.ofDigitChars_ten_toDigits (n := m), same, Nat.ofDigitChars_ten_toDigits]

/-- The decimal digits of `n` with zeros in front up to `width`. -/
def padded (width n : Nat) : List Char :=
  List.replicate (width - (digits n).length) '0' ++ digits n

end Conference.Numeral
