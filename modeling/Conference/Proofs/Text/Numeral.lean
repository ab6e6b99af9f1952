import Conference.Text.Numeral

/-!
# What numerals say

The numerals that are read as a number, said in two ways. As a rule: one or more digits, which may
follow a plus, and the number is their value in base ten. And by the numbers: the digits of the
number itself, with zeros before them and a plus before those.
-/

namespace Conference.Numeral

/-- The numeral consists of digits, after a plus at most, and their value is the number. -/
def Denotes (cs : List Char) (n : Nat) : Prop :=
  ∃ plus ds, (plus = [] ∨ plus = ['+']) ∧ cs = plus ++ ds ∧ ds ≠ [] ∧ (∀ c ∈ ds, c.isDigit)
    ∧ Nat.ofDigitChars 10 ds 0 = n

/-- The numeral may have zeros before its first digit, and a plus before them. -/
def Spells (cs : List Char) (n : Nat) : Prop :=
  ∃ plus zeros, (plus = [] ∨ plus = ['+']) ∧ cs = plus ++ (List.replicate zeros '0' ++ digits n)

/-! ## Digits -/

/-- A character is read as a digit if it is that digit's character. -/
theorem digit?_eq_some_iff {c : Char} {d : Nat} : digit? c = some d ↔ d < 10 ∧ c = d.digitChar := by
  unfold digit?
  split
  · rename_i isDigit
    obtain ⟨low, high⟩ : 48 ≤ c.toNat ∧ c.toNat ≤ 57 := Char.isDigit_iff_toNat.1 isDigit
    rw [Option.some.injEq]
    constructor
    · -- a character is known by its number
      intro value
      have small : d < 10 := by
        rw [← value]
        show c.toNat - 48 < 10
        omega
      refine ⟨small, Char.toNat_inj.1 ?_⟩
      rw [Nat.toNat_digitChar_of_lt_ten small, ← value]
      show c.toNat = 48 + (c.toNat - 48)
      omega
    · rintro ⟨small, rfl⟩
      exact Nat.toNat_digitChar_sub_48_of_lt_ten small
  · rename_i other
    refine iff_of_false nofun ?_
    rintro ⟨small, rfl⟩
    exact other (by rw [Nat.isDigit_digitChar, decide_eq_true small])

/-- A digit behind a number other than zero. -/
theorem digits_append {m d : Nat} (pos : 0 < m) (small : d < 10) :
    digits (10 * m + d) = digits m ++ [d.digitChar] := by
  unfold digits
  rw [← Nat.toDigits_append_toDigits (by decide) pos small, Nat.toDigits_of_lt_base small]

/-- What continues a number other than zero is written behind it. -/
theorem digits_of_readDigits? {cs : List Char} : ∀ {m n : Nat}, 0 < m → readDigits? m cs = some n →
    digits n = digits m ++ cs := by
  induction cs with
  | nil =>
    rintro m _ _ ⟨⟩
    exact (List.append_nil _).symm
  | cons c cs ih =>
    intro m n pos read
    obtain ⟨d, digit, rest⟩ := Option.bind_eq_some_iff.1 read
    obtain ⟨small, rfl⟩ := digit?_eq_some_iff.1 digit
    rw [ih (by omega) rest, digits_append pos small, List.append_assoc]
    rfl

/-- Digits only are read to their end, in base ten. -/
theorem readDigits?_of_isDigit {cs : List Char} :
    ∀ acc : Nat, (∀ c ∈ cs, c.isDigit) →
      readDigits? acc cs = some (Nat.ofDigitChars 10 cs acc) := by
  induction cs with
  | nil => exact fun _ _ => rfl
  | cons c cs ih =>
    intro acc all
    have value : digit? c = some (c.toNat - '0'.toNat) := if_pos (all c List.mem_cons_self)
    rw [readDigits?, value, Nat.ofDigitChars_cons]
    exact ih _ fun c' mem => all c' (List.mem_cons_of_mem _ mem)

/-! ## Numerals -/

/-- A numeral with zeros before it is made of digits. -/
theorem isDigit_of_mem {zeros n : Nat} {c : Char} (mem : c ∈ List.replicate zeros '0' ++ digits n) :
    c.isDigit := by
  rcases List.mem_append.1 mem with zero | digit
  · rw [List.eq_of_mem_replicate zero]
    rfl
  · exact Nat.isDigit_of_mem_toDigits (by decide) (by decide) digit

/-- Reading starts from zero, unless there is nothing to read. -/
theorem readPlain?_of_ne_nil {cs : List Char} (some_digit : cs ≠ []) :
    readPlain? cs = readDigits? 0 cs := by
  cases cs with
  | nil => exact absurd rfl some_digit
  | cons c cs => rfl

/-- Zeros before a numeral do not change what it is read as. -/
theorem readPlain?_zeros (zeros n : Nat) :
    readPlain? (List.replicate zeros '0' ++ digits n) = some n := by
  have some_digit : List.replicate zeros '0' ++ digits n ≠ [] :=
    List.append_ne_nil_of_right_ne_nil _ Nat.toDigits_ne_nil
  rw [readPlain?_of_ne_nil some_digit, readDigits?_of_isDigit 0 fun c => isDigit_of_mem,
    Nat.ofDigitChars_append, Nat.ofDigitChars_replicate_zero, Nat.mul_zero, digits,
    Nat.ofDigitChars_ten_toDigits]

/-- By induction on the text: zeros lead on, and the first other digit starts the plain numeral. -/
theorem zeros_of_readPlain? {cs : List Char} {n : Nat} :
    readPlain? cs = some n → ∃ zeros, cs = List.replicate zeros '0' ++ digits n := by
  induction cs with
  | nil => exact nofun
  | cons c cs ih =>
    intro read
    obtain ⟨d, digit, rest⟩ := Option.bind_eq_some_iff.1 read
    obtain ⟨small, rfl⟩ := digit?_eq_some_iff.1 digit
    rw [Nat.mul_zero, Nat.zero_add] at rest
    rcases Nat.eq_zero_or_pos d with rfl | pos
    · -- a zero is the whole numeral, or one in front of a numeral of the same number
      cases cs with
      | nil =>
        cases rest
        exact ⟨0, rfl⟩
      | cons c' cs =>
        obtain ⟨zeros, same⟩ := ih rest
        exact ⟨zeros + 1, by rw [same]; rfl⟩
    · refine ⟨0, ?_⟩
      rw [digits_of_readDigits? pos rest, digits, Nat.toDigits_of_lt_base small]
      rfl

/-- A number is read from its numeral with zeros before it, and from nothing else. -/
theorem readPlain?_eq_some_iff {cs : List Char} {n : Nat} :
    readPlain? cs = some n ↔ ∃ zeros, cs = List.replicate zeros '0' ++ digits n := by
  refine ⟨zeros_of_readPlain?, ?_⟩
  rintro ⟨zeros, rfl⟩
  exact readPlain?_zeros zeros n

/-- The numerals that are read as a number are its spellings. -/
theorem read?_eq_some_iff {cs : List Char} {n : Nat} : read? cs = some n ↔ Spells cs n := by
  unfold read?
  split <;> rw [readPlain?_eq_some_iff]
  · rename_i cs
    constructor
    · rintro ⟨zeros, rfl⟩
      exact ⟨['+'], zeros, .inr rfl, rfl⟩
    · rintro ⟨plus, zeros, rfl | rfl, same⟩
      · -- a plus is no digit, so it does not start a plain numeral
        have digit : ('+').isDigit := isDigit_of_mem (same ▸ List.mem_cons_self)
        cases digit
      · exact ⟨zeros, (List.cons.inj same).2⟩
  · rename_i bare
    constructor
    · rintro ⟨zeros, same⟩
      exact ⟨[], zeros, .inl rfl, same⟩
    · rintro ⟨plus, zeros, rfl | rfl, same⟩
      · exact ⟨zeros, same⟩
      · exact absurd same (bare _)

/-! ## Digits and their value -/

/-- Conversely only digits are read to their end. -/
theorem isDigit_of_readDigits? {cs : List Char} :
    ∀ {acc n : Nat}, readDigits? acc cs = some n → ∀ c ∈ cs, c.isDigit := by
  induction cs with
  | nil => exact fun _ => nofun
  | cons c cs ih =>
    intro acc n read
    obtain ⟨d, digit, rest⟩ := Option.bind_eq_some_iff.1 read
    obtain ⟨small, rfl⟩ := digit?_eq_some_iff.1 digit
    rintro c' mem
    rcases List.mem_cons.1 mem with rfl | later
    · rw [Nat.isDigit_digitChar, decide_eq_true small]
    · exact ih rest c' later

/-- Read by value: digits only, at least one, and they amount to the number. -/
theorem readPlain?_eq_some_iff_value {cs : List Char} {n : Nat} :
    readPlain? cs = some n ↔ cs ≠ [] ∧ (∀ c ∈ cs, c.isDigit) ∧ Nat.ofDigitChars 10 cs 0 = n := by
  cases cs with
  | nil => exact iff_of_false nofun fun none_given => none_given.1 rfl
  | cons c cs =>
    rw [readPlain?_of_ne_nil (List.cons_ne_nil c cs)]
    constructor
    · intro read
      have all := isDigit_of_readDigits? read
      rw [readDigits?_of_isDigit 0 all, Option.some.injEq] at read
      exact ⟨List.cons_ne_nil c cs, all, read⟩
    · rintro ⟨-, all, value⟩
      rw [readDigits?_of_isDigit 0 all, value]

/-- The numerals that are read as a number are those that denote it. -/
theorem read?_eq_some_iff_denotes {cs : List Char} {n : Nat} :
    read? cs = some n ↔ Denotes cs n := by
  unfold read?
  split <;> rw [readPlain?_eq_some_iff_value]
  · rename_i cs
    constructor
    · rintro ⟨some_digit, all, value⟩
      exact ⟨['+'], cs, .inr rfl, rfl, some_digit, all, value⟩
    · rintro ⟨plus, ds, rfl | rfl, same, some_digit, all, value⟩
      · -- a plus is no digit, so it is not the first of them
        rw [List.nil_append] at same
        have digit : ('+').isDigit := all '+' (same ▸ List.mem_cons_self)
        cases digit
      · obtain ⟨-, rfl⟩ := List.cons.inj same
        exact ⟨some_digit, all, value⟩
  · rename_i bare
    constructor
    · rintro ⟨some_digit, all, value⟩
      exact ⟨[], cs, .inl rfl, rfl, some_digit, all, value⟩
    · rintro ⟨plus, ds, rfl | rfl, same, some_digit, all, value⟩
      · rw [same]
        exact ⟨some_digit, all, value⟩
      · exact absurd same (bare _)

/-- The numeral of a number denotes it. -/
theorem denotes_digits (n : Nat) : Denotes (digits n) n :=
  ⟨[], digits n, .inl rfl, rfl, Nat.toDigits_ne_nil, fun _ =>
    Nat.isDigit_of_mem_toDigits (by decide) (by decide), Nat.ofDigitChars_ten_toDigits⟩

end Conference.Numeral
