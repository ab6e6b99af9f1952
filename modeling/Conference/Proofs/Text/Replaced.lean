import Conference.Text.Line
import Mathlib.Data.List.Infix

/-!
# Replacing a mark in a text

A value takes the place of every mark in a text. Marks are met from left to right: the text is cut
into what stands before its first mark, the mark, and what stands behind it, and the search goes on
behind the mark. What a search step by step leaves is that text and no other one.
-/

namespace Conference.Text

/-- The second text is the first one with the value in the place of every mark. -/
inductive Replaced (mark value : List Char) : List Char → List Char → Prop where
  /-- No mark is left. -/
  | rest {text : List Char} (clear : ¬ mark <:+: text) : Replaced mark value text text
  /-- No mark starts within `before`, so that the one behind it is the first. -/
  | next (before : List Char) {behind result : List Char}
    (first : ¬ mark <:+: before ++ mark.dropLast) (others : Replaced mark value behind result) :
      Replaced mark value (before ++ (mark ++ behind)) (before ++ (value ++ result))

variable {mark value text : List Char}

/-- A character where no mark starts stays as it is. -/
theorem Replaced.cons {result : List Char} (h : Replaced mark value text result) {c : Char}
    (other : ¬ mark <+: c :: text) : Replaced mark value (c :: text) (c :: result) := by
  cases h with
  | rest clear => exact .rest (mt List.infix_cons_iff.1 (not_or.2 ⟨other, clear⟩))
  | @next before behind result first others =>
    -- what is a prefix up to within the first mark is a prefix of the whole text
    have early : c :: (before ++ mark.dropLast) <+: c :: (before ++ (mark ++ behind)) :=
      List.cons_prefix_cons.2 ⟨rfl, (List.prefix_append_right_inj before).2
        ((List.dropLast_prefix mark).trans (List.prefix_append mark behind))⟩
    have first' : ¬ mark <:+: (c :: before) ++ mark.dropLast :=
      mt List.infix_cons_iff.1 (not_or.2 ⟨fun starts => other (starts.trans early), first⟩)
    exact .next (c :: before) first' others

/-- A mark at the start of a text is the first one. -/
theorem Replaced.mark_append {behind result : List Char} (full : mark ≠ [])
    (h : Replaced mark value behind result) :
    Replaced mark value (mark ++ behind) (value ++ result) := by
  have shorter : mark.dropLast.length < mark.length := by
    rw [List.length_dropLast]
    exact Nat.sub_one_lt (mt List.length_eq_zero_iff.1 full)
  exact .next [] (fun within => absurd within.length_le (Nat.not_le.2 shorter)) h

/-- By induction on the steps, of which there are as many as characters: a step takes a whole mark
or a single character off the text. -/
theorem replaced_substituteIn (full : mark ≠ []) (n : Nat) :
    ∀ {text : List Char}, text.length ≤ n →
      Replaced mark value text (substituteIn mark value n text) := by
  have bare : ¬ mark <:+: [] := mt List.infix_nil.1 full
  induction n with
  | zero =>
    intro text short
    rw [List.length_eq_zero_iff.1 (Nat.le_zero.1 short)]
    exact .rest bare
  | succ n ih =>
    intro text short
    cases text with
    | nil => exact .rest bare
    | cons c text =>
      unfold substituteIn
      split
      · rename_i starts
        obtain ⟨behind, same⟩ := List.isPrefixOf_iff_prefix.1 starts
        have long : 0 < mark.length := List.length_pos_iff.2 full
        have left : behind.length ≤ n := by
          have lengths := congrArg List.length same
          rw [List.length_append, List.length_cons] at lengths
          rw [List.length_cons] at short
          omega
        -- the mark stands here: it is replaced, and what is behind it comes next
        rw [← same, List.drop_left]
        exact (ih left).mark_append full
      · rename_i other
        exact (ih (Nat.le_of_succ_le_succ short)).cons (mt List.isPrefixOf_iff_prefix.2 other)

/-- Of two ways to cut a text at a mark, the one at its first mark has no more before the mark. -/
theorem length_le_of_first {before before' behind behind' : List Char}
    (same : before ++ (mark ++ behind) = before' ++ (mark ++ behind'))
    (first : ¬ mark <:+: before' ++ mark.dropLast) :
    before'.length ≤ before.length := by
  by_contra shorter
  rw [Nat.not_le] at shorter
  -- otherwise the mark of the other cut lies within what is searched up to the first mark
  have start : before ++ mark <+: before ++ (mark ++ behind) := ⟨behind, List.append_assoc _ _ _⟩
  have start' : before' ++ mark.dropLast <+: before ++ (mark ++ behind) := by
    rw [same]
    exact (List.prefix_append_right_inj before').2
      ((List.dropLast_prefix mark).trans (List.prefix_append _ _))
  have within : before ++ mark <+: before' ++ mark.dropLast := by
    refine List.prefix_of_prefix_length_le start start' ?_
    rw [List.length_append, List.length_append, List.length_dropLast]
    omega
  exact first ((List.suffix_append before mark).isInfix.trans within.isInfix)

/-- There is one way only to replace the marks. -/
theorem Replaced.unique {a b : List Char} (h : Replaced mark value text a)
    (h' : Replaced mark value text b) : a = b := by
  induction h generalizing b with
  | @rest text clear =>
    generalize given : text = whole at h'
    cases h' with
    | rest => rfl
    | next => exact absurd ⟨_, _, (List.append_assoc _ _ _).trans given.symm⟩ clear
  | @next before behind result first others ih =>
    generalize given : before ++ (mark ++ behind) = whole at h'
    cases h' with
    | rest clear => exact absurd ⟨_, _, (List.append_assoc _ _ _).trans given⟩ clear
    | @next before' behind' result' first' others' =>
      -- both have found the first mark, so they have it at the same place
      have level : before.length = before'.length :=
        Nat.le_antisymm (length_le_of_first given.symm first) (length_le_of_first given first')
      obtain ⟨rfl, same⟩ := List.append_inj given level
      rw [List.append_cancel_left same] at ih
      rw [ih others']

/-- What the search makes of a text is the text with the value in the place of every mark, and
nothing else is. -/
theorem replaced_iff_substitute {mark value text result : String} (full : mark ≠ "") :
    Replaced mark.toList value.toList text.toList result.toList
      ↔ result = substitute mark value text := by
  have left : Replaced mark.toList value.toList text.toList
      (substitute mark value text).toList := by
    rw [substitute, String.toList_ofList]
    exact replaced_substituteIn (mt String.toList_eq_nil_iff.1 full) _ (Nat.le_refl _)
  constructor
  · intro h
    exact String.toList_inj.1 (h.unique left)
  · rintro rfl
    exact left

end Conference.Text
