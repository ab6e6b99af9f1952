import Conference.Proofs.Text.Bytes
import Conference.Proofs.Text.Numeral
import Mathlib.Algebra.GroupWithZero.Nat
import Mathlib.Data.Nat.Init

/-!
# Padded numerals

The numerals of a width, with zeros in front: each run of that many digits is the numeral of one
number, and the numerals come in the order of the numbers. Of two of them the first place where they
differ decides, and this is so for the texts that hold them at one place, compared by characters or
by bytes.
-/

namespace Conference

/-- The texts agree up to a digit, and that of the first is smaller than that of the second. -/
def Text.DigitBefore (cs ds : List Char) : Prop :=
  ∃ (common rest rest' : List Char) (a b : Nat), a < b ∧ b < 10
    ∧ cs = common ++ a.digitChar :: rest ∧ ds = common ++ b.digitChar :: rest'

/-! ## Texts with different digits -/

namespace Text.DigitBefore

variable {cs ds : List Char}

theorem append_left (h : DigitBefore cs ds) (fixed : List Char) :
    DigitBefore (fixed ++ cs) (fixed ++ ds) := by
  obtain ⟨common, rest, rest', a, b, less, digit, rfl, rfl⟩ := h
  exact ⟨fixed ++ common, rest, rest', a, b, less, digit, by simp, by simp⟩

theorem append_right (h : DigitBefore cs ds) (es fs : List Char) :
    DigitBefore (cs ++ es) (ds ++ fs) := by
  obtain ⟨common, rest, rest', a, b, less, digit, rfl, rfl⟩ := h
  exact ⟨common, rest ++ es, rest' ++ fs, a, b, less, digit, by simp, by simp⟩

/-- By characters the text with the smaller digit comes first. -/
theorem lt (h : DigitBefore cs ds) : cs < ds := by
  obtain ⟨common, rest, rest', a, b, less, digit, rfl, rfl⟩ := h
  apply List.append_left_lt
  rw [List.cons_lt_cons_iff]
  left
  rw [Char.lt_def, UInt32.lt_iff_toNat_lt]
  show a.digitChar.toNat < b.digitChar.toNat
  rw [Nat.toNat_digitChar_of_lt_ten (by omega), Nat.toNat_digitChar_of_lt_ten digit]
  omega

/-- A digit is one byte, counted up from that of the zero. -/
theorem byte_of_digitChar :
    ∀ a < 10, String.utf8EncodeChar (Nat.digitChar a) = [UInt8.ofNat (48 + a)] := by
  decide

/-- By bytes it does so too. -/
theorem bytes_lt (h : DigitBefore cs ds) : bytes cs < bytes ds := by
  obtain ⟨common, rest, rest', a, b, less, digit, rfl, rfl⟩ := h
  rw [bytes_append, bytes_append, bytes_cons, bytes_cons, byte_of_digitChar a (by omega),
    byte_of_digitChar b digit]
  apply List.append_left_lt
  rw [List.singleton_append, List.singleton_append, List.cons_lt_cons_iff]
  left
  rw [UInt8.lt_iff_toNat_lt, UInt8.toNat_ofNat', UInt8.toNat_ofNat']
  omega

end Text.DigitBefore

/-! ## Numerals of a width -/

namespace Numeral

/-- The last digit comes off the end, and leaves the numeral of what is left of the number. -/
theorem padded_succ {width : Nat} (positive : 1 ≤ width) (n : Nat) :
    padded (width + 1) n = padded width (n / 10) ++ [(n % 10).digitChar] := by
  unfold padded digits
  rw [Nat.toDigits_eq_if (n := n) (by decide)]
  split
  · rename_i small
    -- nothing is left, and the zero that stands for it is one of those in front
    have none_left : n / 10 = 0 := by omega
    have zeros : List.replicate width '0' = List.replicate (width - 1) '0' ++ ['0'] := by
      rw [← List.replicate_succ']
      congr 1
      omega
    rw [none_left, Nat.mod_eq_of_lt small]
    show List.replicate width '0' ++ _ = (List.replicate (width - 1) '0' ++ ['0']) ++ _
    rw [zeros]
  · simp

theorem length_padded {width n : Nat} (positive : 1 ≤ width) (small : n < 10 ^ width) :
    (padded width n).length = width := by
  have short : (digits n).length ≤ width :=
    (Nat.length_toDigits_le_iff (by decide) positive).2 small
  simp only [padded, List.length_append, List.length_replicate]
  omega

/-- By induction on the width: without their last digits the numerals are those of the tenths, and
if these are the same then the last digits decide. -/
theorem padded_before {width : Nat} (positive : 1 ≤ width) :
    ∀ {m n : Nat}, m < n → n < 10 ^ width → Text.DigitBefore (padded width m) (padded width n) := by
  induction width, positive using Nat.le_induction with
  | base =>
    intro m n less small
    refine ⟨[], [], [], m, n, less, by omega, ?_, ?_⟩
    · simp [padded, digits, Nat.toDigits_of_lt_base (show m < 10 by omega)]
    · simp [padded, digits, Nat.toDigits_of_lt_base (show n < 10 by omega)]
  | succ width positive ih =>
    intro m n less small
    rw [padded_succ positive, padded_succ positive]
    -- either the digits before the last decide, or they agree and the last one does
    by_cases tenths : m / 10 < n / 10
    · have bound : n / 10 < 10 ^ width := by
        rw [Nat.pow_succ] at small
        omega
      exact (ih tenths bound).append_right _ _
    · have same : m / 10 = n / 10 := by omega
      rw [same]
      exact ⟨padded width (n / 10), [], [], m % 10, n % 10, by omega, by omega, rfl, rfl⟩

/-- Every run of digits is the numeral of its length for some number. -/
theorem exists_padded {run : List Char} (given : run ≠ []) (all : ∀ c ∈ run, c.isDigit) :
    ∃ n, n < 10 ^ run.length ∧ padded run.length n = run := by
  have read : readPlain? run = some (Nat.ofDigitChars 10 run 0) :=
    readPlain?_eq_some_iff_value.2 ⟨given, all, rfl⟩
  generalize Nat.ofDigitChars 10 run 0 = n at read
  obtain ⟨zeros, written⟩ := readPlain?_eq_some_iff.1 read
  have positive : 0 < run.length := List.length_pos_iff.2 given
  have length : run.length = zeros + (digits n).length := by
    simpa using congrArg List.length written
  refine ⟨n, (Nat.length_toDigits_le_iff (by decide) positive).1 ?_, ?_⟩
  · show (digits n).length ≤ run.length
    omega
  · have front : run.length - (digits n).length = zeros := by omega
    rw [padded, front, ← written]

end Numeral

end Conference
