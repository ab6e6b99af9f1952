import Conference.Proofs.Text.Padded
import Conference.Proofs.Value.Language

/-!
# The enumeration of a pattern

A position of the enumeration is a number in a mixed radix: each gap has a digit of it, which is a
numeral of the gap's width, and the last gap has the lowest one. Of two positions the texts differ
in the first gap where their digits do, so the values come in lexicographic order. And as each run
of digits is the numeral of some number, every text that the pattern describes stands at some
position, as long as the positions are not cut off.

The digits may be taken off the position from the last gap backwards, onto a stack from which the
gaps are then filled from the first one on. That gives the same values.
-/

namespace Conference.Pattern

variable {parts : List Part}

/-- Every gap is as wide as a gap can be. -/
def Sized (parts : List Part) : Prop := ∀ n, Part.digits n ∈ parts → 1 ≤ n ∧ n ≤ 18

/-- The parts behind the first one have gaps of the same widths. -/
theorem Sized.tail {part : Part} (sized : Sized (part :: parts)) : Sized parts :=
  fun n mem => sized n (List.mem_cons_of_mem part mem)

theorem Sized.head {n : Nat} (sized : Sized (.digits n :: parts)) : 1 ≤ n ∧ n ≤ 18 :=
  sized n List.mem_cons_self

/-- A pattern that has been read has a layout, the gaps of which are of widths in range. -/
theorem sized_of_parse {source : String} {p : Pattern} (read : parse source = .ok p) :
    Sized p.parts := by
  obtain ⟨-, l, -, rfl⟩ := parse_eq_ok_iff.1 read
  have fixed (text : List Char) (n : Nat) : Part.digits n ∉ literal? text := by
    cases text <;> simp [literal?]
  intro n mem
  simp only [Layout.parts, List.mem_append, fixed, false_or, List.mem_flatMap] at mem
  obtain ⟨g, -, gap⟩ := mem
  simp only [Gap.parts, List.mem_cons, Part.digits.injEq, fixed, or_false] at gap
  rw [gap]
  exact ⟨g.positive, g.bounded⟩

/-- There is at least one value, since there is at least one row of digits for each gap. -/
theorem count_pos (parts : List Part) : 0 < count parts := by
  induction parts with
  | nil => exact Nat.one_pos
  | cons part parts ih =>
    cases part with
    | literal fixed => exact ih
    | digits n => exact Nat.mul_pos (Nat.pow_pos (by decide)) ih

/-! ## Digits of a position -/

/-- Only what is left of a position when the number of values is taken off counts. -/
theorem fill_of_mod_eq :
    ∀ {parts : List Part} {i j : Nat}, i % count parts = j % count parts →
      fill i parts = fill j parts := by
  intro parts
  induction parts with
  | nil => exact fun _ => rfl
  | cons part parts ih =>
    intro i j same
    cases part with
    | literal fixed =>
      show fixed ++ fill i parts = fixed ++ fill j parts
      rw [ih same]
    | digits n =>
      have same : i % (10 ^ n * count parts) = j % (10 ^ n * count parts) := same
      -- an index falls into the place of the run and the index of the rest
      have first : i / count parts % 10 ^ n = j / count parts % 10 ^ n := by
        rw [← Nat.mod_mul_left_div_self, ← Nat.mod_mul_left_div_self, same]
      have others : i % count parts = j % count parts := by
        rw [← Nat.mod_mul_left_mod i (10 ^ n), ← Nat.mod_mul_left_mod j (10 ^ n), same]
      show Numeral.padded n (i / count parts % 10 ^ n) ++ fill i parts
        = Numeral.padded n (j / count parts % 10 ^ n) ++ fill j parts
      rw [first, ih others]

/-- By induction on the parts: the digits of the first gap decide, or else those of the gaps behind
it. -/
theorem fill_before (sized : Sized parts) :
    ∀ {i j : Nat}, i % count parts < j % count parts →
      Text.DigitBefore (fill i parts) (fill j parts) := by
  induction parts with
  | nil =>
    intro i j less
    simp only [count] at less
    omega
  | cons part parts ih =>
    intro i j less
    cases part with
    | literal fixed => exact (ih sized.tail less).append_left fixed
    | digits n =>
      have small (k : Nat) : k % count parts < count parts := Nat.mod_lt k (count_pos parts)
      have split (k : Nat) : k % (10 ^ n * count parts) = k % count parts + count parts
          * (k / count parts % 10 ^ n) := by
        rw [Nat.mul_comm, Nat.mod_mul]
      have less : i % (10 ^ n * count parts) < j % (10 ^ n * count parts) := less
      rw [split, split] at less
      show Text.DigitBefore (Numeral.padded n (i / count parts % 10 ^ n) ++ fill i parts)
        (Numeral.padded n (j / count parts % 10 ^ n) ++ fill j parts)
      have bound : j / count parts % 10 ^ n < 10 ^ n := Nat.mod_lt _ (Nat.pow_pos (by decide))
      -- `x` and `y` are the digits of the two positions in the first gap
      generalize i / count parts % 10 ^ n = x at less
      generalize j / count parts % 10 ^ n = y at less bound
      rcases Nat.lt_trichotomy x y with smaller | rfl | larger
      · exact (Numeral.padded_before sized.head.1 smaller bound).append_right _ _
      · exact (ih sized.tail (by omega)).append_left _
      · -- with a larger digit here, the position would be the larger one
        have more := Nat.mul_le_mul_left (count parts) larger
        rw [Nat.mul_succ] at more
        have := small j
        omega

/-! ## Positions of texts -/

/-- By induction on the parts: the digit of a position at a gap is less than the number of rows of
digits there, so that its numeral has the width of the gap. -/
theorem fills_fill (sized : Sized parts) (i : Nat) : fills parts (fill i parts) := by
  induction parts with
  | nil => rfl
  | cons part parts ih =>
    have rest := ih sized.tail
    cases part with
    | literal fixed => simp [fills, fill, rest]
    | digits n =>
      have bound : i / count parts % 10 ^ n < 10 ^ n := Nat.mod_lt _ (Nat.pow_pos (by decide))
      apply (fills_digits_iff n).2
      refine ⟨_, _, rfl, Numeral.length_padded sized.head.1 bound, ?_, rest⟩
      intro c mem
      exact Numeral.isDigit_of_mem mem

/-- By induction on the parts: the digits of the first gap, with those of the gaps behind it, make
up a position. -/
theorem exists_fill (sized : Sized parts) :
    ∀ {text : List Char}, fills parts text → ∃ i, i < count parts ∧ fill i parts = text := by
  induction parts with
  | nil =>
    intro text filled
    exact ⟨0, Nat.one_pos, (List.isEmpty_iff.1 filled).symm⟩
  | cons part parts ih =>
    intro text filled
    cases part with
    | literal fixed =>
      simp only [fills, Bool.and_eq_true, List.isPrefixOf_iff_prefix] at filled
      obtain ⟨⟨rest, rfl⟩, others⟩ := filled
      rw [List.drop_left] at others
      obtain ⟨i, bound, same⟩ := ih sized.tail others
      exact ⟨i, bound, congrArg (fixed ++ ·) same⟩
    | digits n =>
      obtain ⟨run, rest, rfl, width, digits, others⟩ := (fills_digits_iff n).1 filled
      obtain ⟨j, below, same⟩ := ih sized.tail others
      have given : run ≠ [] := by
        rw [← List.length_pos_iff, width]
        exact sized.head.1
      obtain ⟨a, small, numeral⟩ := Numeral.exists_padded given digits
      rw [width] at small numeral
      have positive := count_pos parts
      -- the number of the run counts the rounds through the values of the parts behind it
      have quotient : (count parts * a + j) / count parts = a := by
        rw [Nat.mul_add_div positive, Nat.div_eq_of_lt below, Nat.add_zero]
      refine ⟨count parts * a + j, ?_, ?_⟩
      · show count parts * a + j < 10 ^ n * count parts
        have most := Nat.mul_le_mul_left (count parts) small
        rw [Nat.mul_succ, Nat.mul_comm _ (10 ^ n)] at most
        omega
      · have behind : fill (count parts * a + j) parts = fill j parts :=
          fill_of_mod_eq (by rw [Nat.mul_add_mod])
        show Numeral.padded n ((count parts * a + j) / count parts % 10 ^ n)
          ++ fill (count parts * a + j) parts = _
        rw [quotient, Nat.mod_eq_of_lt small, numeral, behind, same]

/-! ## The stack of numerals -/

/-- Takes the digits of a gap off an index and puts their numeral on the stack. The radix is cut
down to 64 bits. -/
def takeDigits : List (List Char) × Nat → Part → List (List Char) × Nat
  | state, .literal _ => state
  | (numerals, index), .digits n =>
    let radix := min (10 ^ n) maxCount
    (Numeral.padded n (index % radix) :: numerals, index / radix)

/-- The numerals of all gaps, taken off an index from the last gap on, so that of the first gap is
on top. -/
def numerals (parts : List Part) (index : Nat) : List (List Char) :=
  (parts.reverse.foldl takeDigits ([], index)).1

/-- The parts one after the other, each gap with the numeral that is on top. -/
def assemble : List (List Char) → List Part → List Char
  | _, [] => []
  | numerals, .literal text :: parts => text ++ assemble numerals parts
  | numerals, .digits _ :: parts => numerals.headD [] ++ assemble numerals.tail parts

/-- By induction on the parts: when their numerals are taken off, an index is left that counts the
rounds through all their values. -/
theorem takeDigits_parts (sized : Sized parts) (index : Nat) :
    (parts.reverse.foldl takeDigits ([], index)).2 = index / count parts
    ∧ assemble (numerals parts index) parts = fill index parts := by
  unfold numerals
  rw [List.foldl_reverse]
  induction parts with
  | nil => simp [count, assemble, fill]
  | cons part parts ih =>
    obtain ⟨left, filled⟩ := ih sized.tail
    rw [List.foldr_cons]
    generalize parts.foldr (fun part state => takeDigits state part) ([], index)
      = state at left filled
    cases part with
    | literal fixed => exact ⟨left, congrArg (fixed ++ ·) filled⟩
    | digits n =>
      -- a run is short enough for its count not to be cut off
      have whole : min (10 ^ n) maxCount = 10 ^ n := by
        have most := Nat.pow_le_pow_right (show 0 < 10 by decide) sized.head.2
        have fits : 10 ^ 18 ≤ maxCount := by decide
        omega
      simp only [takeDigits, whole, left]
      refine ⟨?_, congrArg (Numeral.padded n (index / count parts % 10 ^ n) ++ ·) filled⟩
      rw [Nat.div_div_eq_div_mul, Nat.mul_comm]
      rfl

/-! ## All values -/

/-- The enumeration has as many values as the capacity says. -/
theorem length_values (p : Pattern) : p.values.length = p.capacity := by simp [values]

theorem mem_values {p : Pattern} {value : String} :
    value ∈ p.values ↔ ∃ i, i < p.capacity ∧ p.valueAt i = value := by
  simp [values]

/-- Of two positions below the capacity the earlier one has the earlier text. Below the capacity
nothing is taken off a position, so that its digits are all there. -/
theorem valueAt_before {p : Pattern} (sized : Sized p.parts) {i j : Nat} (less : i < j)
    (bound : j < p.capacity) :
    Text.DigitBefore (p.valueAt i).toList (p.valueAt j).toList := by
  rw [capacity_eq] at bound
  simp only [valueAt, String.toList_ofList]
  apply fill_before sized
  rw [Nat.mod_eq_of_lt (by omega), Nat.mod_eq_of_lt (by omega)]
  exact less

/-- The values come in the order of their digits. -/
theorem pairwise_values {p : Pattern} (sized : Sized p.parts) :
    p.values.Pairwise fun a b => Text.DigitBefore a.toList b.toList := by
  have ascending : (List.range p.capacity).Pairwise fun i j => i < j ∧ j < p.capacity :=
    List.pairwise_lt_range.imp_of_mem fun _ later less => ⟨less, List.mem_range.1 later⟩
  exact List.pairwise_map.2 (ascending.imp fun h => valueAt_before sized h.1 h.2)

/-- No value comes twice, since none comes before itself. -/
theorem nodup_values {p : Pattern} (sized : Sized p.parts) : p.values.Nodup :=
  (pairwise_values sized).imp fun {a b} before same => by
    have less := before.lt
    rw [same] at less
    exact List.lt_irrefl _ less

/-- The values of a pattern are as many as its capacity says, in strictly ascending order of
characters and of bytes. Each of them is one that the pattern admits, and unless the capacity is cut
off there are no others. Counted with a cut after each gap, and taken off the stack, they are the
same. -/
theorem values_are_enumerated {source : String} {p : Pattern} (read : parse source = .ok p) :
    p.values.length = p.capacity
    ∧ p.values.Pairwise (fun a b => a < b ∧ Text.bytes a.toList < Text.bytes b.toList)
    ∧ (∀ value ∈ p.values, p.admits value)
    ∧ (p.capacity < 2 ^ 64 - 1 → ∀ value, p.admits value → value ∈ p.values)
    ∧ p.values
      = (List.range (tally 1 p.parts)).map fun index =>
        String.ofList (assemble (numerals p.parts index) p.parts) := by
  have sized := sized_of_parse read
  refine ⟨p.length_values, ?order, ?sound, ?complete, ?stack⟩
  case order =>
    refine (pairwise_values sized).imp fun before => ⟨?_, before.bytes_lt⟩
    rw [String.lt_iff]
    exact before.lt
  case sound =>
    intro value mem
    obtain ⟨i, -, rfl⟩ := mem_values.1 mem
    simp only [admits, valueAt, String.toList_ofList]
    exact fills_fill sized i
  case complete =>
    intro whole value admitted
    obtain ⟨i, bound, same⟩ := exists_fill sized admitted
    -- below the bound nothing was cut off, so each position counts
    have counted : p.capacity = count p.parts := by
      have largest : maxCount = 2 ^ 64 - 1 := by decide
      rw [capacity_eq] at whole ⊢
      omega
    refine mem_values.2 ⟨i, by omega, ?_⟩
    rw [valueAt, same, String.ofList_toList]
  case stack =>
    rw [tally_eq p.parts (by decide), Nat.one_mul, ← capacity_eq]
    apply List.map_congr_left
    intro index _
    rw [(takeDigits_parts sized index).2]
    rfl

/-- Two gaps, the second of two digits, with text before, between and behind them. -/
theorem room_numbers_are_enumerated :
    let p : Pattern :=
      ⟨"ä-\x7bdigit:1\x7d-\x7bdigit:2\x7d!",
        [.literal ['ä', '-'], .digits 1, .literal ['-'], .digits 2, .literal ['!']]⟩
    parse "ä-\x7bdigit:1\x7d-\x7bdigit:2\x7d!" = .ok p ∧ p.values.length = 1000
    ∧ p.values.Pairwise (fun a b => a < b ∧ Text.bytes a.toList < Text.bytes b.toList)
    ∧ p.valueAt 101 = "ä-1-01!" ∧ p.admits "ä-1-01!" ∧ p.capacity < 2 ^ 64 - 1
    ∧ "ä-9-99!" ∈ p.values
    ∧ p.values
      = (List.range (tally 1 p.parts)).map fun index =>
        String.ofList (assemble (numerals p.parts index) p.parts) := by
  intro p
  have read : parse "ä-\x7bdigit:1\x7d-\x7bdigit:2\x7d!" = .ok p := by rfl
  have capacity : p.capacity = 1000 := by decide
  have whole : p.capacity < 2 ^ 64 - 1 := by decide
  have place : p.valueAt 101 = "ä-1-01!" := by decide
  have last : p.admits "ä-9-99!" := by decide
  obtain ⟨length, order, sound, complete, stack⟩ := values_are_enumerated read
  -- the value is in the list, as it stands at its index
  have listed : "ä-1-01!" ∈ p.values := mem_values.2 ⟨101, by decide, place⟩
  rw [capacity] at length
  exact ⟨read, length, order, place, sound _ listed, whole, complete whole _ last, stack⟩

end Conference.Pattern
