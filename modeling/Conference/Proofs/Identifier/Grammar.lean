import Conference.Proofs.Identifier.Spelling
import Mathlib.Algebra.Group.Nat.Defs

/-!
# The form of an identifier

A text is read as an identifier just if it has four parts between colons: the scheme, a domain, the
code of a kind, and a local part that is a star or a numeral for a number of 64 bits. An identifier
that has been written is read back as it was. A text that has been read is written back as it was
just if it has its local number in plain form, without a plus and without zeros in front.
-/

namespace Conference

namespace LocalId

/-- How a local part may be written. -/
inductive Written : String → LocalId → Prop where
  | wildcard : Written "*" wildcard
  | number {text : String} {n : Nat} (denotes : Numeral.Denotes text.toList n)
    (small : n < 2 ^ 64) : Written text (number n)

/-- The bound of a number that fits 64 bits. -/
theorem bound_eq : bound = 2 ^ 64 := by decide

/-- The local part is read off as it is written: a star, or a number that fits. -/
theorem read?_eq_some_iff {text : String} {l : LocalId} :
    read? text.toList = some l ↔ Written text l := by
  cases l with
  | wildcard =>
    rw [read?_eq_some_wildcard_iff]
    constructor
    · intro star
      have same : text = "*" := String.toList_injective star
      rw [same]
      exact .wildcard
    · rintro ⟨⟩
      rfl
  | number n =>
    -- reading digit by digit is bounded on the way, reading them all is bounded at the end
    rw [read?_eq_some_number_iff, ← Numeral.read?_eq_some_iff,
      Numeral.read?_eq_some_iff_denotes, bound_eq]
    constructor
    · intro read
      exact .number read.1 read.2
    · intro written
      cases written with
      | number denotes small => exact ⟨denotes, small⟩

/-- A local part has no colon in it, so it ends where the id does. -/
theorem colon_not_mem_of_written {text : String} {l : LocalId} (written : Written text l) :
    ':' ∉ text.toList := by
  cases written with
  | wildcard => decide
  | number denotes small =>
    obtain ⟨plus, ds, sign, same, -, digits, -⟩ := denotes
    rw [same, List.mem_append, not_or]
    constructor
    · rcases sign with rfl | rfl <;> decide
    · intro mem
      have digit : (':').isDigit := digits _ mem
      cases digit

end LocalId

namespace GlobalId

/-- The parts of an identifier, with colons between them. -/
def joined (domain code rest : String) : String := "conf:" ++ domain ++ ":" ++ code ++ ":" ++ rest

/-- The text has the form of an identifier with the given domain, code and local part. -/
structure HasForm (text domain code rest : String) : Prop where
  parts : text = joined domain code rest
  someDomain : domain ≠ ""
  onePart : ':' ∉ domain.toList
  known : code ∈ ["res", "req", "rsv", "exe"]
  addressed : ∃ l, LocalId.Written rest l

/-- An identifier that can be written: its domain is one part, and its number fits into 64 bits. -/
structure IsProper (x : GlobalId) : Prop where
  someDomain : x.domain ≠ ""
  onePart : ':' ∉ x.domain.toList
  fits : ∀ n, x.localId = .number n → n < 2 ^ 64

variable {text domain code rest : String} {x : GlobalId}

/-- The characters of an id, part by part. -/
theorem toList_joined (domain code rest : String) :
    (joined domain code rest).toList = scheme ++ ':'
      :: (domain.toList ++ ':' :: (code.toList ++ ':' :: rest.toList)) := by
  simp [joined, scheme]

/-- Two ids with the same domain and code differ in the rest only. -/
theorem joined_inj {rest' : String} :
    joined domain code rest = joined domain code rest' ↔ rest = rest' := by
  constructor
  · intro same
    have lists := congrArg String.toList same
    simp only [toList_joined, List.append_cancel_left_eq, List.cons.injEq, true_and] at lists
    exact String.toList_injective lists
  · intro same
    rw [same]

/-- An id is rendered by joining its parts. -/
theorem render_eq (x : GlobalId) :
    x.render = joined x.domain x.kind.code (String.ofList x.localId.render) := by
  apply String.toList_injective
  rw [toList_joined]
  simp [render]

/-- The known codes are those of the kinds. -/
theorem known_iff {code : String} :
    code ∈ ["res", "req", "rsv", "exe"] ↔ ∃ kind : GlobalKind, kind.code = code := by
  constructor
  · intro known
    simp only [List.mem_cons, List.not_mem_nil, or_false] at known
    rcases known with rfl | rfl | rfl | rfl
    · exact ⟨.resource, rfl⟩
    · exact ⟨.request, rfl⟩
    · exact ⟨.reservation, rfl⟩
    · exact ⟨.executable, rfl⟩
  · rintro ⟨kind, rfl⟩
    cases kind <;> decide

/-- Between the colons of joined parts stand the parts, if no colon stands in them. -/
theorem partsAt_joined (kind : GlobalKind) (domain_plain : ':' ∉ domain.toList)
    (rest_plain : ':' ∉ rest.toList) :
    Text.partsAt ':' (joined domain kind.code rest).toList
      = [scheme, domain.toList, kind.code.toList, rest.toList] := by
  have scheme_plain : ':' ∉ scheme := by decide
  have code_plain : ':' ∉ kind.code.toList := by cases kind <;> decide
  rw [toList_joined, Text.partsAt_append scheme_plain, Text.partsAt_append domain_plain,
    Text.partsAt_append code_plain, Text.partsAt_of_not_mem rest_plain]

/-- What a text has to be in order to be read as an identifier. -/
theorem parse_eq_ok_iff : parse text = .ok x ↔ x.domain ≠ "" ∧ ':' ∉ x.domain.toList
    ∧ ∃ rest, text = joined x.domain x.kind.code rest ∧ LocalId.Written rest x.localId := by
  unfold parse
  rw [ofParts_eq_ok_iff]
  constructor
  · rintro ⟨someDomain, cs, parts, read⟩
    have onePart : ':' ∉ x.domain.toList := by
      apply Text.not_mem_of_mem_partsAt
      rw [parts]
      simp
    -- joining the parts gives the text again
    have whole := Text.intercalate_partsAt ':' text.toList
    rw [parts] at whole
    refine ⟨someDomain, onePart, String.ofList cs, ?_, ?_⟩
    · apply String.toList_injective
      rw [toList_joined, ← whole]
      simp [List.intercalate]
    · rw [← LocalId.read?_eq_some_iff, String.toList_ofList]
      exact read
  · rintro ⟨someDomain, onePart, rest, rfl, written⟩
    have rest_plain := LocalId.colon_not_mem_of_written written
    exact ⟨someDomain, rest.toList, partsAt_joined x.kind onePart rest_plain,
      LocalId.read?_eq_some_iff.2 written⟩

/-- A text of the form of an identifier is read as one that says the same. -/
theorem HasForm.exists_parse (form : HasForm text domain code rest) :
    ∃ x, parse text = .ok x ∧ x.domain = domain ∧ x.kind.code = code
      ∧ LocalId.Written rest x.localId := by
  obtain ⟨kind, rfl⟩ := known_iff.1 form.known
  obtain ⟨l, written⟩ := form.addressed
  exact ⟨⟨domain, kind, l⟩,
    parse_eq_ok_iff.2 ⟨form.someDomain, form.onePart, rest, form.parts, written⟩, rfl, rfl, written⟩

/-- What parses has the form of an id. -/
theorem hasForm_of_parse (h : parse text = .ok x) :
    ∃ rest, HasForm text x.domain x.kind.code rest := by
  obtain ⟨someDomain, onePart, rest, parts, written⟩ := parse_eq_ok_iff.1 h
  exact ⟨rest, parts, someDomain, onePart, known_iff.2 ⟨x.kind, rfl⟩, x.localId, written⟩

/-- The local part of a proper id is rendered in a way that is read back. -/
theorem IsProper.written (proper : x.IsProper) :
    LocalId.Written (String.ofList x.localId.render) x.localId := by
  cases localId : x.localId with
  | wildcard => exact .wildcard
  | number n =>
    refine .number ?_ (proper.fits n localId)
    rw [String.toList_ofList]
    exact Numeral.denotes_digits n

/-- A proper id is rendered as a text that parses to it. -/
theorem parse_render (proper : x.IsProper) : parse x.render = .ok x :=
  parse_eq_ok_iff.2 ⟨proper.someDomain, proper.onePart, _, x.render_eq, proper.written⟩

/-- A local part comes out as it was written if it is a star or a plain numeral. -/
theorem render_localId_eq_iff {l : LocalId} (written : LocalId.Written rest l) :
    String.ofList l.render = rest ↔ rest = "*" ∨ ∃ n, l = .number n ∧ rest = toString n := by
  cases written with
  | wildcard => exact iff_of_true rfl (.inl rfl)
  | @number _ n denotes small =>
    have plain : String.ofList (LocalId.number n).render = toString n := rfl
    rw [plain]
    constructor
    · intro same
      exact .inr ⟨n, rfl, same.symm⟩
    · rintro (rfl | ⟨m, number, same⟩)
      · -- a star is no numeral
        have read := Numeral.read?_eq_some_iff_denotes.2 denotes
        cases read
      · cases number
        exact same.symm

/-- The texts that are read as identifiers are those of the right form, and they say what is read.
Identifiers are read back as they were. A text is written back as it was just if its local part is a
star or the plain numeral of its number. -/
theorem read_as_written :
    (∀ text, (∃ x, parse text = .ok x) ↔ ∃ domain code rest, HasForm text domain code rest)
    ∧ (∀ x : GlobalId, x.IsProper → parse x.render = .ok x)
    ∧ ∀ {text domain code rest : String} {x : GlobalId}, parse text = .ok x →
      HasForm text domain code rest →
      (x.domain = domain ∧ x.kind.code = code ∧ LocalId.Written rest x.localId)
      ∧ (x.render = text ↔ rest = "*" ∨ ∃ n, x.localId = .number n ∧ rest = toString n) := by
  refine ⟨fun text => ⟨?_, ?_⟩, fun x proper => parse_render proper, ?_⟩
  · rintro ⟨x, read⟩
    obtain ⟨rest, form⟩ := hasForm_of_parse read
    exact ⟨x.domain, x.kind.code, rest, form⟩
  · rintro ⟨domain, code, rest, form⟩
    obtain ⟨x, read, -⟩ := form.exists_parse
    exact ⟨x, read⟩
  · intro text domain code rest x read form
    -- a text has one reading, so the form and the identifier belong together
    obtain ⟨y, again, rfl, rfl, written⟩ := form.exists_parse
    rw [read] at again
    cases again
    refine ⟨⟨rfl, rfl, written⟩, ?_⟩
    rw [x.render_eq, form.parts, joined_inj]
    exact render_localId_eq_iff written

/-- The number 42 behind a plus and a zero is read, and comes out without them. -/
theorem respelled_identifier_read :
    let text := "conf:cz.example:res:+042"
    let x : GlobalId := ⟨"cz.example", .resource, .number 42⟩
    parse text = .ok x ∧ HasForm text "cz.example" "res" "+042" ∧ x.IsProper
      ∧ parse x.render = .ok x
      ∧ LocalId.Written "+042" x.localId
      ∧ (x.render = text ↔ "+042" = "*" ∨ ∃ n, x.localId = .number n ∧ "+042" = toString n) := by
  intro text x
  -- a sign and a leading zero do not change the number
  have denotes : Numeral.Denotes "+042".toList 42 :=
    ⟨['+'], ['0', '4', '2'], .inr rfl, rfl, by decide, by simp, rfl⟩
  have written : LocalId.Written "+042" x.localId := .number denotes (by decide)
  have form : HasForm text "cz.example" "res" "+042" :=
    ⟨rfl, by decide, by decide, by decide, x.localId, written⟩
  have proper : x.IsProper := ⟨by decide, by decide, fun n same => by cases same; decide⟩
  have read : parse text = .ok x := parse_eq_ok_iff.2 ⟨by decide, by decide, "+042", rfl, written⟩
  obtain ⟨-, again⟩ := read_as_written.2.2 read form
  exact ⟨read, form, proper, read_as_written.2.1 x proper, written, again⟩

end GlobalId

end Conference
