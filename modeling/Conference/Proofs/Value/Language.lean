import Conference.Proofs.Text.Bytes
import Conference.Proofs.Value.Layout
import Mathlib.Algebra.GroupWithZero.Nat

/-!
# The values of a pattern

A text is a value of a pattern just if it is the pattern's layout with digits in the gaps, as many
as each gap is wide. So there are as many values as there are rows of that many digits. That a text
is a value can be found out on its bytes: wherever the search goes on behind some bytes, it goes on
between two characters.
-/

namespace Conference.Pattern

/-- The text is what stands behind the first fixed text of a layout, with digits in the gaps. -/
inductive Filled : List Gap → List Char → Prop where
  | nil : Filled [] []
  | cons (g : Gap) {gaps : List Gap} {run rest : List Char} (width : run.length = g.width)
    (digits : ∀ c ∈ run, c.isDigit) (others : Filled gaps rest) :
      Filled (g :: gaps) (run ++ (g.after ++ rest))

/-- The text is the layout with digits in the gaps. -/
def Layout.Describes (l : Layout) (text : List Char) : Prop :=
  ∃ rest, text = l.first ++ rest ∧ Filled l.gaps rest

variable {parts : List Part} {text : List Char}

/-! ## Values -/

/-- A fixed text is filled by itself only. -/
theorem fills_literal_iff (fixed : List Char) :
    fills (.literal fixed :: parts) text ↔ ∃ rest, text = fixed ++ rest ∧ fills parts rest := by
  rw [fills, Bool.and_eq_true, List.isPrefixOf_iff_prefix]
  constructor
  · rintro ⟨⟨rest, rfl⟩, others⟩
    rw [List.drop_left] at others
    exact ⟨rest, rfl, others⟩
  · rintro ⟨rest, rfl, others⟩
    rw [List.drop_left]
    exact ⟨List.prefix_append _ _, others⟩

/-- An empty fixed text makes no part, and is filled by nothing. -/
theorem fills_literal?_iff (fixed : List Char) :
    fills (literal? fixed ++ parts) text ↔ ∃ rest, text = fixed ++ rest ∧ fills parts rest := by
  cases fixed with
  | nil => simp [literal?]
  | cons c fixed => exact fills_literal_iff (c :: fixed)

/-- A gap is filled by as many digits as it is wide. -/
theorem fills_digits_iff (n : Nat) : fills (.digits n :: parts) text
    ↔ ∃ run rest, text = run ++ rest ∧ run.length = n ∧ (∀ c ∈ run, c.isDigit)
    ∧ fills parts rest := by
  rw [fills, Bool.and_eq_true, Bool.and_eq_true, decide_eq_true_eq, List.all_eq_true]
  constructor
  · rintro ⟨⟨long, digits⟩, others⟩
    exact ⟨text.take n, text.drop n, (List.take_append_drop n text).symm,
      List.length_take_of_le long, digits, others⟩
  · rintro ⟨run, rest, rfl, rfl, digits, others⟩
    rw [List.take_left, List.drop_left]
    exact ⟨⟨by simp, digits⟩, others⟩

/-- By induction on the gaps, each of which takes its digits and the fixed text behind it off the
text. -/
theorem fills_gaps_iff (gaps : List Gap) :
    ∀ {text : List Char}, fills (gaps.flatMap Gap.parts) text ↔ Filled gaps text := by
  induction gaps with
  | nil =>
    intro text
    -- without gaps nothing may be left of the text
    have empty : fills ([].flatMap Gap.parts) text ↔ text = [] := by simp [fills]
    rw [empty]
    constructor
    · rintro rfl
      exact .nil
    · rintro ⟨⟩
      rfl
  | cons g gaps ih =>
    intro text
    have split : (g :: gaps).flatMap Gap.parts = .digits g.width
        :: (literal? g.after ++ gaps.flatMap Gap.parts) := rfl
    rw [split, fills_digits_iff]
    constructor
    · rintro ⟨run, behind, rfl, width, digits, others⟩
      obtain ⟨rest, rfl, filled⟩ := (fills_literal?_iff g.after).1 others
      exact .cons g width digits (ih.1 filled)
    · intro filled
      cases filled with
      | @cons _ _ run rest width digits others =>
        exact ⟨run, g.after ++ rest, rfl, width, digits,
          (fills_literal?_iff g.after).2 ⟨rest, rfl, ih.2 others⟩⟩

/-- A text fills the parts of a layout just if it is the layout with digits in the gaps. -/
theorem fills_layout_iff (l : Layout) : fills l.parts text ↔ l.Describes text := by
  rw [Layout.parts, fills_literal?_iff]
  constructor
  · rintro ⟨rest, same, filled⟩
    exact ⟨rest, same, (fills_gaps_iff l.gaps).1 filled⟩
  · rintro ⟨rest, same, filled⟩
    exact ⟨rest, same, (fills_gaps_iff l.gaps).2 filled⟩

/-- The text is the parts one after the other, with digits in the gaps. -/
inductive Spelled : List Part → List Char → Prop where
  | nil : Spelled [] []
  | literal (fixed : List Char) {parts : List Part} {rest : List Char}
    (others : Spelled parts rest) : Spelled (.literal fixed :: parts) (fixed ++ rest)
  | digits {run rest : List Char} {parts : List Part} (digits : ∀ c ∈ run, c.isDigit)
      (others : Spelled parts rest) : Spelled (.digits run.length :: parts) (run ++ rest)

/-- By induction on the parts, whose first one takes its text off the front. -/
theorem fills_iff_spelled (parts : List Part) :
    ∀ {text : List Char}, fills parts text ↔ Spelled parts text := by
  induction parts with
  | nil =>
    intro text
    rw [fills, List.isEmpty_iff]
    constructor
    · rintro rfl
      exact .nil
    · rintro ⟨⟩
      rfl
  | cons part parts ih =>
    intro text
    -- a literal consumes its own length, a run of digits the number of them
    cases part with
    | literal fixed =>
      rw [fills_literal_iff]
      constructor
      · rintro ⟨rest, rfl, filled⟩
        exact .literal fixed (ih.1 filled)
      · intro spelled
        cases spelled with
        | literal _ others => exact ⟨_, rfl, ih.2 others⟩
    | digits n =>
      rw [fills_digits_iff]
      constructor
      · rintro ⟨run, rest, rfl, rfl, digits, filled⟩
        exact .digits digits (ih.1 filled)
      · intro spelled
        cases spelled with
        | digits digits others => exact ⟨_, _, rfl, rfl, digits, ih.2 others⟩

/-! ## The number of values -/

/-- Fixed text does not count. -/
theorem count_literal? (fixed : List Char) : count (literal? fixed ++ parts) = count parts := by
  cases fixed <;> rfl

/-- There are as many values as rows of digits, one for each place in a gap. -/
theorem count_layout (l : Layout) : count l.parts = 10 ^ (l.gaps.map (·.width)).sum := by
  rw [Layout.parts, count_literal?]
  induction l.gaps with
  | nil => rfl
  | cons g gaps ih =>
    have split : (g :: gaps).flatMap Gap.parts = .digits g.width
        :: (literal? g.after ++ gaps.flatMap Gap.parts) := rfl
    rw [split, count, count_literal?, ih, List.map_cons, List.sum_cons, Nat.pow_add]
    rfl

/-- The capacity is the number of values, as long as it fits into 64 bits. -/
theorem capacity_eq (p : Pattern) : p.capacity = min (count p.parts) maxCount := by
  unfold capacity
  simp only
  split <;> omega

/-- The number of values when it is cut down to 64 bits after each gap, from a number so far. -/
def tally (soFar : Nat) : List Part → Nat
  | [] => soFar
  | .literal _ :: parts => tally soFar parts
  | .digits n :: parts => tally (min (soFar * min (10 ^ n) maxCount) maxCount) parts

/-- A factor may be cut down before the product is. -/
theorem min_mul_min (a b bound : Nat) : min (a * min b bound) bound = min (a * b) bound := by
  rcases Nat.eq_zero_or_pos a with rfl | positive
  · simp
  · rcases Nat.le_total b bound with small | large
    · rw [Nat.min_eq_left small]
    · have first : bound ≤ a * bound := Nat.le_mul_of_pos_left bound positive
      have second : a * bound ≤ a * b := Nat.mul_le_mul_left a large
      rw [Nat.min_eq_right large, Nat.min_eq_right first,
        Nat.min_eq_right (Nat.le_trans first second)]

/-- By induction on the parts: to cut down on the way changes nothing of what comes out at the
end. -/
theorem tally_eq (parts : List Part) :
    ∀ {soFar}, soFar ≤ maxCount → tally soFar parts = min (soFar * count parts) maxCount := by
  induction parts with
  | nil =>
    intro soFar small
    simp [tally, count, small]
  | cons part parts ih =>
    intro soFar small
    cases part with
    | literal fixed => exact ih small
    | digits n =>
      calc
        tally soFar (.digits n :: parts) = tally (min (soFar * 10 ^ n) maxCount) parts := by
          rw [tally, min_mul_min]
        _ = min (min (soFar * 10 ^ n) maxCount * count parts) maxCount := ih (Nat.min_le_right _ _)
        _ = min (soFar * 10 ^ n * count parts) maxCount := by
          rw [Nat.mul_comm, min_mul_min, Nat.mul_comm]
        _ = min (soFar * count (.digits n :: parts)) maxCount := by rw [count, Nat.mul_assoc]; rfl

/-! ## Values told from their bytes -/

/-- Decides on the bytes of a text whether it fills the parts. It goes on behind the bytes that a
part takes, and there is no answer if that is within a character. -/
def fillsBytewise? : List Part → List Char → Option Bool
  | [], text => some (Text.bytes text).isEmpty
  | .literal fixed :: parts, text =>
    if (Text.bytes fixed).isPrefixOf (Text.bytes text) then
      (Text.cut? (Text.bytes fixed).length text).bind (fillsBytewise? parts)
    else some false
  | .digits n :: parts, text =>
    if decide (n ≤ (Text.bytes text).length) && ((Text.bytes text).take n).all Text.isDigitByte then
      (Text.cut? n text).bind (fillsBytewise? parts)
    else some false

def admitsBytewise? (p : Pattern) (value : String) : Option Bool :=
  fillsBytewise? p.parts value.toList

/-- There always is an answer on the bytes, and it is the one on the characters. -/
theorem fillsBytewise?_eq (parts : List Part) :
    ∀ text, fillsBytewise? parts text = some (fills parts text) := by
  induction parts with
  | nil =>
    intro text
    cases text with
    | nil => rfl
    | cons c text => simp [fillsBytewise?, fills, String.utf8EncodeChar_ne_nil]
  | cons part parts ih =>
    intro text
    cases part with
    | literal fixed =>
      rw [fillsBytewise?, fills]
      by_cases starts : fixed <+: text
      · -- a prefix of the bytes that ends with a character is a prefix of the characters
        have bytes : (Text.bytes fixed).isPrefixOf (Text.bytes text) = true :=
          List.isPrefixOf_iff_prefix.2 (Text.bytes_prefix_iff.2 starts)
        rw [if_pos bytes, List.isPrefixOf_iff_prefix.2 starts]
        obtain ⟨rest, rfl⟩ := starts
        rw [Text.cut?_append, List.drop_left, Option.bind_some, ih, Bool.true_and]
      · have bytes : ¬ (Text.bytes fixed).isPrefixOf (Text.bytes text) = true := fun same =>
          starts (Text.bytes_prefix_iff.1 (List.isPrefixOf_iff_prefix.1 same))
        have differs : fixed.isPrefixOf text = false := by
          rw [← Bool.not_eq_true, List.isPrefixOf_iff_prefix]
          exact starts
        rw [if_neg bytes, differs, Bool.false_and]
    | digits n =>
      rw [fillsBytewise?, fills, Text.digits_of_bytes, ← Text.startsWithDigits]
      -- digits take one byte each, so the same bytes are cut off
      by_cases starts : Text.startsWithDigits n text
      · rw [if_pos starts, Text.cut?_of_startsWithDigits text starts, Option.bind_some, ih,
          starts, Bool.true_and]
      · rw [if_neg starts, eq_false_of_ne_true starts, Bool.false_and]

/-! ## The whole of it -/

/-- The texts that are read as patterns are those with a layout, but for the empty one. Whatever its
layout says holds of the pattern that is read: its values are the texts with digits in the gaps,
they are as many as 64 bits can say, and a text is told to be one, or not to be one, on its bytes as
well. -/
theorem read_by_layout (source : String) :
    ((∃ p, parse source = .ok p) ↔ source ≠ "" ∧ ∃ l : Layout, l.text = source.toList)
    ∧ ∀ {p : Pattern} {l : Layout}, parse source = .ok p → l.text = source.toList →
      (∀ value : String, p.admits value ↔ l.Describes value.toList)
      ∧ p.capacity = min (10 ^ (l.gaps.map (·.width)).sum) (2 ^ 64 - 1)
      ∧ tally 1 p.parts = p.capacity
      ∧ ∀ value : String, p.admitsBytewise? value = some (p.admits value) := by
  constructor
  · constructor
    · rintro ⟨p, read⟩
      obtain ⟨given, l, text, -⟩ := parse_eq_ok_iff.1 read
      exact ⟨given, l, text⟩
    · rintro ⟨given, l, text⟩
      exact ⟨_, parse_eq_ok_iff.2 ⟨given, l, text, rfl⟩⟩
  · intro p l read text
    -- a text has one pattern, so it is that of the given layout
    obtain ⟨given, -⟩ := parse_eq_ok_iff.1 read
    have own : parse source = .ok ⟨source, l.parts⟩ := parse_eq_ok_iff.2 ⟨given, l, text, rfl⟩
    rw [read] at own
    cases own
    have largest : maxCount = 2 ^ 64 - 1 := by decide
    refine ⟨fun value => fills_layout_iff l, ?_, ?_, fun value =>
      fillsBytewise?_eq l.parts value.toList⟩
    · rw [capacity_eq, count_layout, largest]
    · rw [capacity_eq, tally_eq l.parts (by decide), Nat.one_mul]

/-- Two digits, a closing brace that stands for itself, and one more digit; the width of the first
gap is spelled with a plus and a zero, and the fixed text starts with a character of two bytes. -/
theorem spelled_pattern_read :
    let source := "ä\x7bdigit:+02\x7d\x7dx\x7bdigit:1\x7d"
    let p : Pattern := ⟨source, [.literal ['ä'], .digits 2, .literal ['\x7d', 'x'], .digits 1]⟩
    ∃ l : Layout, parse source = .ok p ∧ l.text = source.toList ∧ l.gaps.map (·.width) = [2, 1]
      ∧ (∀ value : String, p.admits value ↔ l.Describes value.toList) ∧ p.capacity = 1000
      ∧ tally 1 p.parts = p.capacity
      ∧ ∀ value : String, p.admitsBytewise? value = some (p.admits value) := by
  intro source p
  -- a sign and leading zeros do not change the width
  have two : Numeral.Denotes ['+', '0', '2'] 2 :=
    ⟨['+'], ['0', '2'], .inr rfl, rfl, by decide, by simp, rfl⟩
  have one : Numeral.Denotes ['1'] 1 := ⟨[], ['1'], .inl rfl, rfl, by decide, by simp, rfl⟩
  let l : Layout :=
    { first := ['ä']
      gaps :=
        [⟨['+', '0', '2'], 2, ['\x7d', 'x'], two, by decide, by decide, by decide⟩,
          ⟨['1'], 1, [], one, by decide, by decide, by decide⟩]
      plain := by decide }
  have text : l.text = source.toList := by simp [l, source, Layout.text, Gap.text]
  have widths : l.gaps.map (·.width) = [2, 1] := rfl
  have read : parse source = .ok p := parse_eq_ok_iff.2 ⟨by decide, l, text, rfl⟩
  obtain ⟨values, capacity, counted, bytewise⟩ := (read_by_layout source).2 read text
  rw [widths] at capacity
  exact ⟨l, read, text, widths, values, capacity.trans (by decide), counted, bytewise⟩

end Conference.Pattern
