/-!
# Pieces of text

Cutting text at a separator character, and cutting it into lines. A line ends at a line feed, alone
or after a carriage return; the end of the text ends a last line only if that line has any
characters.
-/

namespace Conference.Text

/-- The parts between the occurrences of `sep`: one more than there are occurrences. -/
def partsAt (sep : Char) : List Char → List (List Char)
  | [] => [[]]
  | c :: rest =>
    if c = sep then [] :: partsAt sep rest
    else match partsAt sep rest with
      | part :: parts => (c :: part) :: parts
      | [] => [[c]]

/-- A line that a line feed has ended, less the carriage return before that line feed. -/
def endLine (line : List Char) : List Char :=
  if line.getLast? = some '\r' then line.dropLast else line

/-- The lines of the rest of a text after the characters `line` of an unfinished line. -/
def linesFrom (line : List Char) : List Char → List (List Char)
  | [] => if line.isEmpty then [] else [line]
  | c :: rest =>
    if c = '\n' then endLine line :: linesFrom [] rest
    else linesFrom (line ++ [c]) rest

def lines (s : String) : List String :=
  (linesFrom [] s.toList).map String.ofList

/-- `text` with every occurrence of `mark` replaced by `value`, from left to right. The first
argument bounds the number of steps by the length of `text`. -/
def substituteIn (mark value : List Char) : Nat → List Char → List Char
  | 0, text => text
  | _, [] => []
  | n + 1, c :: rest =>
    if mark.isPrefixOf (c :: rest) then
      value ++ substituteIn mark value n ((c :: rest).drop mark.length)
    else c :: substituteIn mark value n rest

/-- `text` with every occurrence of the non-empty `mark` replaced by `value`. -/
def substitute (mark value text : String) : String :=
  String.ofList (substituteIn mark.toList value.toList text.toList.length text.toList)

/-! ## Parts and the text they come from -/

theorem partsAt_ne_nil (sep : Char) (cs : List Char) : partsAt sep cs ≠ [] := by
  cases cs with
  | nil => simp [partsAt]
  | cons c rest =>
    rw [partsAt]
    split
    · simp
    · split <;> simp

theorem not_mem_of_mem_partsAt {sep : Char} {cs part : List Char} (h : part ∈ partsAt sep cs) :
    sep ∉ part := by
  induction cs generalizing part with
  | nil => simp_all [partsAt]
  | cons c rest ih =>
    rw [partsAt] at h
    split at h
    · rcases List.mem_cons.1 h with rfl | h
      · simp
      · exact ih h
    · rename_i other
      split at h
      · rename_i first parts eq
        rcases List.mem_cons.1 h with rfl | h
        · have clear : sep ∉ first := ih (by rw [eq]; exact List.mem_cons_self)
          simp [clear, Ne.symm other]
        · exact ih (by rw [eq]; exact List.mem_cons_of_mem _ h)
      · rename_i eq
        exact absurd eq (partsAt_ne_nil sep rest)

/-- The parts with the separator between them are the text. -/
theorem intercalate_partsAt (sep : Char) (cs : List Char) :
    [sep].intercalate (partsAt sep cs) = cs := by
  induction cs with
  | nil => simp [partsAt]
  | cons c rest ih =>
    rw [partsAt]
    split
    · -- a separator ends a part, any other character belongs to the first one
      rename_i same
      cases h : partsAt sep rest with
      | nil => exact absurd h (partsAt_ne_nil sep rest)
      | cons part parts =>
        rw [h] at ih
        rw [same, ← ih]
        simp [List.intercalate]
    · cases h : partsAt sep rest with
      | nil => exact absurd h (partsAt_ne_nil sep rest)
      | cons part parts =>
        rw [h] at ih
        rw [← ih]
        cases parts <;> simp [List.intercalate]

theorem partsAt_of_not_mem {sep : Char} {part : List Char} (clear : sep ∉ part) :
    partsAt sep part = [part] := by
  induction part with
  | nil => rfl
  | cons c part ih =>
    obtain ⟨other, clear⟩ := not_or.1 (mt List.mem_cons.2 clear)
    rw [partsAt, if_neg (Ne.symm other), ih clear]

/-- The first part ends at the first separator. -/
theorem partsAt_append {sep : Char} {part : List Char} (clear : sep ∉ part) (rest : List Char) :
    partsAt sep (part ++ sep :: rest) = part :: partsAt sep rest := by
  induction part with
  | nil => rw [List.nil_append, partsAt, if_pos rfl]
  | cons c part ih =>
    obtain ⟨other, clear⟩ := not_or.1 (mt List.mem_cons.2 clear)
    rw [List.cons_append, partsAt, if_neg (Ne.symm other), ih clear]

/-! ## Lines -/

theorem linesFrom_ne_nil (cs : List Char) :
    ∀ {line : List Char}, line ++ cs ≠ [] → linesFrom line cs ≠ [] := by
  induction cs with
  | nil =>
    intro line some_left
    rw [List.append_nil] at some_left
    rw [linesFrom, List.isEmpty_eq_false_iff.2 some_left]
    exact List.cons_ne_nil _ _
  | cons c cs ih =>
    intro line _
    rw [linesFrom]
    split
    · exact List.cons_ne_nil _ _
    · exact ih (by simp)

theorem lines_ne_nil {s : String} (some_left : s ≠ "") : lines s ≠ [] := by
  refine mt List.map_eq_nil_iff.1 (linesFrom_ne_nil s.toList ?_)
  rw [List.nil_append]
  exact mt String.toList_eq_nil_iff.1 some_left

/-- Texts of several lines each, one below the other, are the text of all their lines. -/
theorem intercalate_map_intercalate {sep : String} {groups : List (List String)}
    (full : ∀ group ∈ groups, group ≠ []) :
    sep.intercalate (groups.map sep.intercalate) = sep.intercalate groups.flatten := by
  induction groups with
  | nil => rfl
  | cons group groups ih =>
    obtain ⟨first, others⟩ := List.forall_mem_cons.1 full
    cases groups with
    | nil =>
      rw [List.map_cons, List.map_nil, String.intercalate_singleton, List.flatten_cons,
        List.flatten_nil, List.append_nil]
    | cons next groups =>
      have rest : (next :: groups).flatten ≠ [] :=
        fun empty => others next List.mem_cons_self
          (List.flatten_eq_nil_iff.1 empty next List.mem_cons_self)
      show _ = sep.intercalate (group ++ (next :: groups).flatten)
      rw [List.map_cons, String.intercalate_cons_of_ne_nil (by simp), ih others,
        String.intercalate_append_of_ne_nil first rest]

end Conference.Text
