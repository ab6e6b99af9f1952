/-!
# Texts as bytes

In memory a text is a row of bytes, of which each character takes between one and four. A text can
be cut between its characters, but a cut within one leaves no text. Digits take one byte each, and
no byte of any other character looks like one; so where the first bytes of a text are digits, a cut
behind them is one between characters.
-/

namespace Conference.Text

/-- The bytes of a text, character by character. -/
def bytes (cs : List Char) : List UInt8 := cs.flatMap String.utf8EncodeChar

/-- What a text goes on with after a number of bytes. Within a character, or beyond the end, it
cannot be cut. -/
def cut? : Nat → List Char → Option (List Char)
  | 0, cs => some cs
  | _ + 1, [] => none
  | n + 1, c :: cs => if c.utf8Size ≤ n + 1 then cut? (n + 1 - c.utf8Size) cs else none

/-- The bytes of the digits. -/
def isDigitByte (b : UInt8) : Bool := decide (48 ≤ b.toNat) && decide (b.toNat ≤ 57)

@[simp]
theorem bytes_nil : bytes [] = [] := rfl

@[simp]
theorem bytes_cons (c : Char) (cs : List Char) :
    bytes (c :: cs) = String.utf8EncodeChar c ++ bytes cs :=
  rfl

theorem bytes_append (cs ds : List Char) : bytes (cs ++ ds) = bytes cs ++ bytes ds :=
  List.flatMap_append

/-! ## Cuts -/

theorem cut?_utf8Size (c : Char) (n : Nat) (cs : List Char) :
    cut? (c.utf8Size + n) (c :: cs) = cut? n cs := by
  have positive := c.utf8Size_pos
  have some_bytes : c.utf8Size + n = (c.utf8Size + n - 1) + 1 := by omega
  rw [some_bytes, cut?, if_pos (by omega)]
  congr 1
  omega

/-- Behind some characters a text goes on with what comes after them. -/
theorem cut?_append (cs rest : List Char) : cut? (bytes cs).length (cs ++ rest) = some rest := by
  induction cs with
  | nil => simp [cut?]
  | cons c cs ih =>
    rw [bytes_cons, List.length_append, String.length_utf8EncodeChar,
      List.cons_append, cut?_utf8Size, ih]

/-- Texts whose bytes start alike start alike. -/
theorem bytes_prefix_iff {cs ds : List Char} : bytes cs <+: bytes ds ↔ cs <+: ds := by
  constructor
  · rintro ⟨rest, same⟩
    apply List.isPrefix_of_utf8Encode_append_eq_utf8Encode rest.toByteArray
    show (bytes cs).toByteArray ++ rest.toByteArray = (bytes ds).toByteArray
    rw [← same, List.toByteArray_append]
  · rintro ⟨rest, rfl⟩
    rw [bytes_append]
    exact List.prefix_append _ _

/-! ## Digits -/

/-- A digit is one byte, which shows that it is a digit. -/
theorem bytes_of_isDigit {c : Char} (digit : c.isDigit) :
    ∃ b, String.utf8EncodeChar c = [b] ∧ isDigitByte b := by
  obtain ⟨low, high⟩ : 48 ≤ c.val.toNat ∧ c.val.toNat ≤ 57 := Char.isDigit_iff_toNat.1 digit
  refine ⟨UInt8.ofNat c.val.toNat, ?_, ?_⟩
  · unfold String.utf8EncodeChar
    simp only
    rw [if_pos (by omega)]
  · simp only [isDigitByte, UInt8.toNat_ofNat', Bool.and_eq_true, decide_eq_true_eq]
    omega

/-- The first byte of any other character is none of a digit: it is another one-byte character, or a
byte that opens a longer one. -/
theorem first_byte_of_not_isDigit {c : Char} (other : ¬ c.isDigit) :
    ∃ b bs, String.utf8EncodeChar c = b :: bs ∧ ¬ isDigitByte b := by
  have outside : ¬ (48 ≤ c.val.toNat ∧ c.val.toNat ≤ 57) :=
    fun range => other (Char.isDigit_iff_toNat.2 range)
  have hides {v : Nat} (beyond : v % 256 < 48 ∨ 57 < v % 256) : ¬ isDigitByte (UInt8.ofNat v) := by
    simp only [isDigitByte, UInt8.toNat_ofNat', Bool.and_eq_true, decide_eq_true_eq]
    omega
  unfold String.utf8EncodeChar
  simp only
  -- one case for each length of the encoding: longer ones begin above the digits
  split
  · exact ⟨_, _, rfl, hides (by omega)⟩
  · split
    · exact ⟨_, _, rfl, hides (by omega)⟩
    · split
      · exact ⟨_, _, rfl, hides (by omega)⟩
      · exact ⟨_, _, rfl, hides (by omega)⟩

/-- The text starts with a number of digits. -/
def startsWithDigits (n : Nat) (cs : List Char) : Bool :=
  decide (n ≤ cs.length) && (cs.take n).all (·.isDigit)

/-- Whether a text starts with digits can be told from its bytes. -/
theorem digits_of_bytes (cs : List Char) :
    ∀ n, (decide (n ≤ (bytes cs).length) && ((bytes cs).take n).all isDigitByte)
      = startsWithDigits n cs := by
  induction cs with
  | nil =>
    intro n
    cases n <;> rfl
  | cons c cs ih =>
    intro n
    cases n with
    | zero => simp [startsWithDigits]
    | succ n =>
      by_cases digit : c.isDigit
      · -- a digit is a single byte
        obtain ⟨b, one, shows⟩ := bytes_of_isDigit digit
        have rest := ih n
        unfold startsWithDigits at rest ⊢
        simpa [one, shows, digit] using rest
      · -- any other character shows by its first byte that it is none
        obtain ⟨b, bs, first, hides⟩ := first_byte_of_not_isDigit digit
        simp [startsWithDigits, first, hides, digit]

/-- Behind the digits that a text starts with it can be cut. -/
theorem cut?_of_startsWithDigits (cs : List Char) :
    ∀ {n}, startsWithDigits n cs → cut? n cs = some (cs.drop n) := by
  induction cs with
  | nil =>
    intro n starts
    cases n with
    | zero => rfl
    | succ n => cases starts
  | cons c cs ih =>
    intro n starts
    cases n with
    | zero => rfl
    | succ n =>
      -- the first character is a digit, which takes one byte
      have both : c.isDigit = true ∧ startsWithDigits n cs = true := by
        unfold startsWithDigits at starts ⊢
        simp only [List.length_cons, List.take_succ_cons, List.all_cons, Bool.and_eq_true,
          decide_eq_true_eq] at starts ⊢
        obtain ⟨long, first, others⟩ := starts
        exact ⟨first, by omega, others⟩
      obtain ⟨b, one, -⟩ := bytes_of_isDigit both.1
      have size : c.utf8Size = 1 := by rw [← String.length_utf8EncodeChar, one]; rfl
      rw [List.drop_succ_cons, ← ih both.2, ← cut?_utf8Size c n cs, size, Nat.add_comm]

end Conference.Text
