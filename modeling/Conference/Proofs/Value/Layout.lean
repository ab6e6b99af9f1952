import Conference.Proofs.Text.Numeral
import Conference.Value.Pattern

/-!
# The layout of a pattern

A pattern is fixed text with gaps in it. What is written for a gap names its width, between braces,
and the text up to the next gap has no opening brace. `Layout` is a pattern taken apart in this way,
and the texts that are read as patterns are just those that have a layout.
-/

namespace Conference.Pattern

/-- A gap as it is written, with the fixed text behind it. -/
structure Gap where
  numeral : List Char
  width : Nat
  after : List Char
  denotes : Numeral.Denotes numeral width
  positive : 1 ≤ width
  bounded : width ≤ 18
  plain : '\x7b' ∉ after

/-- Fixed text, and the gaps behind it. -/
structure Layout where
  first : List Char
  gaps : List Gap
  plain : '\x7b' ∉ first

def Gap.text (g : Gap) : List Char := '\x7b' :: ("digit:".toList ++ g.numeral) ++ '\x7d' :: g.after

def Gap.parts (g : Gap) : List Part := .digits g.width :: literal? g.after

/-- What is written for the layout. -/
def Layout.text (l : Layout) : List Char := l.first ++ l.gaps.flatMap Gap.text

def Layout.parts (l : Layout) : List Part := literal? l.first ++ l.gaps.flatMap Gap.parts

/-! ## Placeholders -/

/-- A placeholder stands for a gap just if it is the keyword and a numeral for a width that a gap
can have. -/
theorem width?_eq_some_iff {placeholder : List Char} {n : Nat} : width? placeholder = some n ↔
    ∃ numeral, placeholder = "digit:".toList ++ numeral ∧ Numeral.Denotes numeral n
      ∧ 1 ≤ n ∧ n ≤ 18 := by
  have keyword : "digit:".toList = gapKeyword := rfl
  rw [keyword]
  unfold width?
  constructor
  · intro h
    split at h
    · rename_i starts
      obtain ⟨numeral, rfl⟩ := List.isPrefixOf_iff_prefix.1 starts
      rw [List.drop_left, Option.filter_eq_some_iff, Numeral.read?_eq_some_iff_denotes] at h
      -- only numerals of widths in range come through the filter
      have bounds : 1 ≤ n ∧ n ≤ maxWidth := by simpa using h.2
      exact ⟨numeral, rfl, h.1, bounds⟩
    · cases h
  · rintro ⟨numeral, rfl, denotes, positive, bounded⟩
    have starts : gapKeyword.isPrefixOf (gapKeyword ++ numeral) = true :=
      List.isPrefixOf_iff_prefix.2 (List.prefix_append _ _)
    rw [if_pos starts, List.drop_left, Option.filter_eq_some_iff, Numeral.read?_eq_some_iff_denotes]
    exact ⟨denotes, by simp [maxWidth, positive, bounded]⟩

/-- No placeholder for a gap has a closing brace in it, so the first such brace ends it. -/
theorem closeBrace_not_mem {numeral : List Char} {n : Nat} (denotes : Numeral.Denotes numeral n) :
    closeBrace ∉ "digit:".toList ++ numeral := by
  obtain ⟨plus, ds, sign, rfl, -, digits, -⟩ := denotes
  rw [List.mem_append, List.mem_append, not_or, not_or]
  refine ⟨by decide, ?_, ?_⟩
  · rcases sign with rfl | rfl <;> decide
  · intro mem
    have digit : closeBrace.isDigit := digits _ mem
    cases digit

/-! ## Reading what is written -/

/-- Outside of a placeholder a text without an opening brace is gathered as it stands. -/
theorem parseParts_fixed {fixed : List Char} (plain : openBrace ∉ fixed) (rest : List Char) :
    ∀ text, parseParts text none (fixed ++ rest) = parseParts (text ++ fixed) none rest := by
  induction fixed with
  | nil => simp
  | cons c fixed ih =>
    intro text
    have other : c ≠ openBrace := fun same => plain (same ▸ List.mem_cons_self)
    have later : openBrace ∉ fixed := fun mem => plain (List.mem_cons_of_mem _ mem)
    rw [List.cons_append, parseParts, if_neg other, ih later]
    simp

/-- Within a placeholder a text without a closing brace is gathered as it stands. -/
theorem parseParts_placeholder {placeholder : List Char} (plain : closeBrace ∉ placeholder)
    (text rest : List Char) :
    ∀ before, parseParts text (some before) (placeholder ++ rest)
      = parseParts text (some (before ++ placeholder)) rest := by
  induction placeholder with
  | nil => simp
  | cons c placeholder ih =>
    intro before
    have other : c ≠ closeBrace := fun same => plain (same ▸ List.mem_cons_self)
    have later : closeBrace ∉ placeholder := fun mem => plain (List.mem_cons_of_mem _ mem)
    rw [List.cons_append, parseParts, if_neg other, ih later]
    simp

/-- By induction on the gaps, each of which is read from its opening brace to the end of the text
behind it. -/
theorem parseParts_gaps (gaps : List Gap) :
    ∀ text, parseParts text none (gaps.flatMap Gap.text)
      = .ok (literal? text ++ gaps.flatMap Gap.parts) := by
  induction gaps with
  | nil => simp [parseParts]
  | cons g gaps ih =>
    intro text
    have width : width? ("digit:".toList ++ g.numeral) = some g.width :=
      width?_eq_some_iff.2 ⟨g.numeral, rfl, g.denotes, g.positive, g.bounded⟩
    have written : (g :: gaps).flatMap Gap.text
        = openBrace :: ("digit:".toList ++ g.numeral ++ closeBrace
          :: (g.after ++ gaps.flatMap Gap.text)) := by
      simp [Gap.text, openBrace, closeBrace]
    -- the brace opens a placeholder, which goes on up to the next closing brace
    rw [written, parseParts, if_pos rfl, parseParts_placeholder (closeBrace_not_mem g.denotes),
      List.nil_append, parseParts, if_pos rfl, width]
    simp only
    rw [parseParts_fixed g.plain, List.nil_append, ih]
    simp [Except.map, Gap.parts]

/-- What is written for a layout is read as its parts: the fixed text before the first gap, then the
gaps. -/
theorem parseParts_layout (l : Layout) : parseParts [] none l.text = .ok l.parts := by
  rw [Layout.text, parseParts_fixed l.plain, List.nil_append, parseParts_gaps]
  rfl

/-! ## Taking apart what is read -/

/-- By induction on what is left of the text: outside of placeholders it has a layout of its own,
and within one it comes to the brace that ends it, and has a layout from there. -/
theorem exists_layout_of_parseParts (cs : List Char) :
    (∀ {text parts}, parseParts text none cs = .ok parts → ∃ l : Layout, l.text = cs)
    ∧ ∀ {text before parts}, parseParts text (some before) cs = .ok parts →
      ∃ (placeholder : List Char) (n : Nat) (l : Layout),
        cs = placeholder ++ closeBrace :: l.text ∧ width? (before ++ placeholder) = some n := by
  induction cs with
  | nil =>
    constructor
    · intro text parts _
      exact ⟨⟨[], [], nofun⟩, rfl⟩
    · intro text before parts h
      cases h
  | cons c rest ih =>
    obtain ⟨outside, within⟩ := ih
    constructor
    · intro text parts h
      rw [parseParts] at h
      split at h
      · -- a gap starts here, and what is behind it has a layout
        rename_i opens
        obtain ⟨placeholder, n, l, rfl, width⟩ := within h
        rw [List.nil_append] at width
        obtain ⟨numeral, rfl, denotes, positive, bounded⟩ := width?_eq_some_iff.1 width
        let g : Gap := ⟨numeral, n, l.first, denotes, positive, bounded, l.plain⟩
        refine ⟨⟨[], g :: l.gaps, nofun⟩, ?_⟩
        simp [Layout.text, Gap.text, g, opens, openBrace, closeBrace]
      · rename_i other
        -- a character that opens no gap goes in front of the first fixed text
        obtain ⟨l, rfl⟩ := outside h
        have plain : '\x7b' ∉ c :: l.first := by
          rw [List.mem_cons, not_or]
          exact ⟨Ne.symm other, l.plain⟩
        exact ⟨⟨c :: l.first, l.gaps, plain⟩, rfl⟩
    · intro text before parts h
      rw [parseParts] at h
      split at h
      · -- the placeholder ends here, and what has been gathered of it is that of a gap
        rename_i closes
        split at h
        · cases h
        · rename_i n width
          cases read : parseParts [] none rest with
          | error fault =>
            rw [read] at h
            cases h
          | ok others =>
            obtain ⟨l, rfl⟩ := outside read
            refine ⟨[], n, l, by rw [closes, List.nil_append], ?_⟩
            rw [List.append_nil]
            exact width
      · obtain ⟨placeholder, n, l, rfl, width⟩ := within h
        -- the placeholder goes on with this character
        refine ⟨c :: placeholder, n, l, rfl, ?_⟩
        rw [List.append_assoc] at width
        exact width

/-! ## Patterns -/

/-- No part is made of an empty text. -/
theorem literal?_eq_nil_iff {text : List Char} : literal? text = [] ↔ text = [] := by
  cases text <;> simp [literal?]

/-- A layout has no parts only if nothing is written for it. -/
theorem Layout.parts_eq_nil_iff (l : Layout) : l.parts = [] ↔ l.text = [] := by
  unfold parts text
  rw [List.append_eq_nil_iff, List.append_eq_nil_iff, literal?_eq_nil_iff]
  cases l.gaps with
  | nil => simp
  | cons g gaps => simp [Gap.parts, Gap.text]

/-- The texts that are read as patterns are those with a layout, but for the empty one. -/
theorem parse_eq_ok_iff {source : String} {p : Pattern} :
    parse source = .ok p ↔ source ≠ "" ∧ ∃ l : Layout, l.text = source.toList
      ∧ p = ⟨source, l.parts⟩ := by
  have someText : source ≠ "" ↔ source.toList ≠ [] := by simp
  rw [someText]
  unfold parse
  constructor
  · intro h
    split at h
    · cases h
    · cases h
    · rename_i part parts read
      obtain ⟨l, text⟩ := (exists_layout_of_parseParts source.toList).1 read
      rw [← text, parseParts_layout] at read
      cases h
      -- the parts that have been read are those of the layout, so it is not empty
      have own : l.parts = part :: parts := Except.ok.inj read
      refine ⟨?_, l, text, by rw [own]⟩
      rw [← text, ne_eq, ← l.parts_eq_nil_iff, own]
      exact List.cons_ne_nil _ _
  · rintro ⟨given, l, text, rfl⟩
    rw [← text, ne_eq, ← l.parts_eq_nil_iff] at given
    rw [← text, parseParts_layout]
    cases own : l.parts with
    | nil => exact absurd own given
    | cons part parts => rfl

end Conference.Pattern
