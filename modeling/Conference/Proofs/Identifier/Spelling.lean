import Conference.Identifier
import Conference.Proofs.Text.Numeral
import Mathlib.Logic.Basic

/-!
# Spellings of an identifier

A number has a plain numeral, but it is read as well with zeros and a plus in front. So the text of
an identifier is known from the identifier up to the spelling of its local number, and no further.
-/

namespace Conference

namespace LocalId

theorem read?_eq_some_wildcard_iff {cs : List Char} : read? cs = some wildcard ↔ cs = ['*'] := by
  unfold read?
  split
  · exact iff_of_true rfl rfl
  · rename_i other
    refine iff_of_false ?_ other
    cases Numeral.readBelow? bound cs <;> exact nofun

theorem read?_eq_some_number_iff {cs : List Char} {n : Nat} :
    read? cs = some (number n) ↔ Numeral.Spells cs n ∧ n < bound := by
  rw [← Numeral.read?_eq_some_iff]
  unfold read?
  split
  · refine iff_of_false nofun fun spelled => ?_
    cases spelled.1
  · rw [Option.map_eq_some_iff, Numeral.readBelow?]
    simp [Option.filter_eq_some_iff]

/-- What is spelled in more than one way is a number. -/
theorem number_of_read? {l : LocalId} {cs cs' : List Char} (read : read? cs = some l)
    (read' : read? cs' = some l) (differ : cs ≠ cs') :
    ∃ n, l = number n ∧ Numeral.Spells cs n ∧ Numeral.Spells cs' n := by
  cases l with
  | wildcard =>
    rw [read?_eq_some_wildcard_iff] at read read'
    exact absurd (read.trans read'.symm) differ
  | number n =>
    exact ⟨n, rfl, (read?_eq_some_number_iff.1 read).1, (read?_eq_some_number_iff.1 read').1⟩

theorem eq_number_of_spells {l : LocalId} {cs : List Char} {n : Nat} (read : read? cs = some l)
    (spelled : Numeral.Spells cs n) : l = number n := by
  have number := Numeral.read?_eq_some_iff.2 spelled
  cases l with
  | wildcard =>
    rw [read?_eq_some_wildcard_iff.1 read] at number
    cases number
  | number m =>
    rw [Numeral.read?_eq_some_iff.2 (read?_eq_some_number_iff.1 read).1] at number
    rw [Option.some.inj number]

end LocalId

namespace GlobalId

variable {text text' : String} {x x' : GlobalId}

/-- All of an identifier but its local part. -/
def stem (domain : String) (kind : GlobalKind) : List Char :=
  scheme ++ ':' :: domain.toList ++ ':' :: kind.code.toList ++ [':']

theorem ofCode?_eq_some_iff {code : List Char} {kind : GlobalKind} :
    GlobalKind.ofCode? code = some kind ↔ code = kind.code.toList := by
  constructor
  · intro read
    have found := List.find?_eq_some_iff_append.1 read
    exact (beq_iff_eq.1 found.1).symm
  · intro same
    rw [same]
    cases kind <;> decide

/-- The four parts of an identifier: all but the local one are fixed by what they say. -/
theorem ofParts_eq_ok_iff {parts : List (List Char)} :
    ofParts parts = .ok x ↔ x.domain ≠ "" ∧ ∃ rest,
      parts = [scheme, x.domain.toList, x.kind.code.toList, rest]
        ∧ LocalId.read? rest = some x.localId := by
  unfold ofParts
  constructor
  · -- each of the tests on the way has to pass
    intro h
    split at h
    · rename_i first domain code rest
      split at h
      · cases h
      · rename_i named
        split at h
        · cases h
        · rename_i someDomain
          split at h
          · cases h
          · rename_i kind coded
            split at h
            · cases h
            · rename_i l read
              cases h
              refine ⟨fun empty => someDomain ?_, rest, ?_, read⟩
              · simpa using empty
              · rw [not_not.1 named, ofCode?_eq_some_iff.1 coded, String.toList_ofList]
    · cases h
  · rintro ⟨someDomain, rest, rfl, read⟩
    have given : ¬ x.domain.toList.isEmpty = true := by simpa using someDomain
    have coded : GlobalKind.ofCode? x.kind.code.toList = some x.kind := ofCode?_eq_some_iff.2 rfl
    simp only [ne_eq, not_true_eq_false, if_false, if_neg given, coded, read, String.ofList_toList]

/-- A text that is an identifier says what it is, up to the way in which it spells the local
part. -/
theorem spelled_of_parse (h : parse text = .ok x) :
    ∃ cs, text.toList = stem x.domain x.kind ++ cs ∧ LocalId.read? cs = some x.localId := by
  obtain ⟨-, rest, parts, read⟩ := ofParts_eq_ok_iff.1 h
  refine ⟨rest, ?_, read⟩
  rw [← Text.intercalate_partsAt ':' text.toList, parts]
  simp [stem, List.intercalate]

theorem isGlobal_of_parse (h : parse text = .ok x) : isGlobal text := by
  obtain ⟨cs, spelled, -⟩ := spelled_of_parse h
  unfold isGlobal
  rw [spelled]
  rfl

/-- The two texts differ, but only in how they spell the local number. -/
def Respelled (domain : String) (kind : GlobalKind) (text text' : String) : Prop :=
  text ≠ text' ∧ ∃ n cs cs', Numeral.Spells cs n ∧ Numeral.Spells cs' n
    ∧ text.toList = stem domain kind ++ cs ∧ text'.toList = stem domain kind ++ cs'

/-- Different texts are the same identifier just if one of them respells the other. -/
theorem eq_iff_respelled (h : parse text = .ok x) (h' : parse text' = .ok x')
    (domain : x.domain = x'.domain) (kind : x.kind = x'.kind) (differ : text ≠ text') :
    x = x' ↔ Respelled x.domain x.kind text text' := by
  obtain ⟨cs, spelled, read⟩ := spelled_of_parse h
  obtain ⟨cs', spelled', read'⟩ := spelled_of_parse h'
  rw [← domain, ← kind] at spelled'
  constructor
  · rintro rfl
    -- the stems are the same, so it is the local parts that differ
    have apart : cs ≠ cs' := by
      rintro rfl
      exact differ (String.toList_injective (spelled.trans spelled'.symm))
    obtain ⟨n, -, spells, spells'⟩ := LocalId.number_of_read? read read' apart
    exact ⟨differ, n, cs, cs', spells, spells', spelled, spelled'⟩
  · rintro ⟨-, n, ds, ds', spells, spells', same, same'⟩
    rw [← List.append_cancel_left (spelled.symm.trans same)] at spells
    rw [← List.append_cancel_left (spelled'.symm.trans same')] at spells'
    have local_eq : x.localId = x'.localId :=
      (LocalId.eq_number_of_spells read spells).trans
        (LocalId.eq_number_of_spells read' spells').symm
    cases x
    cases x'
    cases domain
    cases kind
    cases local_eq
    rfl

theorem respelled_iff_ne (h : parse text = .ok x) (h' : parse text' = .ok x) :
    Respelled x.domain x.kind text text' ↔ text ≠ text' :=
  ⟨And.left, fun differ => (eq_iff_respelled h h' rfl rfl differ).1 rfl⟩

end GlobalId

end Conference
