import Conference.Allocation.Alias
import Conference.Proofs.Text.Replaced
import Conference.Proofs.Value.Language

/-!
# What a provider makes of a value

An alias specification asks for some of the templates of a provider. Each of these makes one alias
of the value that is handed out, which takes the place of every `{value}` in the template. What is
asked for, what a template makes, which values a pool accepts and until when a resource may be
booked are said here without the functions that work it out, and those functions are shown to meet
it.
-/

namespace Conference

/-! ## The bound in time -/

/-- The slot ends in time for a pass that starts at the reference: the bound lies as many seconds
behind it as the resource says, or at the nearest time of 64 bits. -/
def Resource.InTime (r : Resource) (slot : Slot) (reference : Int) : Prop :=
  ∀ future, r.maximumFuture = some future →
    slot.stop ≤ max (-9223372036854775808) (min 9223372036854775807 (reference + future))

/-- The bound that is computed for a resource is the last instant up to which it may be booked. -/
theorem Resource.inTime_iff {r : Resource} {slot : Slot} {reference : Int} :
    r.InTime slot reference ↔ r.isWithinMaximumFuture slot reference := by
  unfold InTime isWithinMaximumFuture maximumFutureEnd?
  cases r.maximumFuture with
  | none => simp
  | some future => simp [Instant.clamp_eq, Instant.least, Instant.greatest]

/-! ## Accepted values -/

/-- Any value may be asked for, or this one is spelled by a pattern. -/
def Pool.Takes (pool : Pool) (value : String) : Prop :=
  pool.acceptsAny ∨ ∃ p ∈ pool.patterns, Pattern.Spelled p.parts value.toList

/-- A pool accepts just the values it takes. -/
theorem Pool.takes_iff {pool : Pool} {value : String} : pool.Takes value ↔ pool.accepts value := by
  unfold Takes accepts Pattern.admits
  simp only [Bool.or_eq_true, List.any_eq_true, Pattern.fills_iff_spelled]

/-! ## Templates -/

/-- The alias has the type of the template, and its text is the template's with the value in the
place of every gap. -/
structure AliasTemplate.Makes (t : AliasTemplate) (value : String) (a : Alias) : Prop where
  type : a.type = t.type
  text : Text.Replaced "\x7bvalue\x7d".toList value.toList t.pattern.toList a.value.toList

/-- What a template makes of a value is its text with the value put in the place of each gap. -/
theorem AliasTemplate.makes_iff {t : AliasTemplate} {value : String} {a : Alias} :
    t.Makes value a ↔ a = t.generate value := by
  have full : gap ≠ "" := by decide
  constructor
  · rintro ⟨type, text⟩
    have value := (Text.replaced_iff_substitute full).1 text
    cases a
    cases type
    cases value
    rfl
  · rintro rfl
    exact ⟨rfl, (Text.replaced_iff_substitute full).2 rfl⟩

namespace AliasSpec

/-- The template is among those that are asked for. Where no type is given, any will do, and so will
any technology where none is given. A template without technology is left in whatever technologies
are given. -/
structure AsksFor (spec : AliasSpec) (t : AliasTemplate) : Prop where
  type : (∃ type, type ∈ spec.types) → t.type ∈ spec.types
  technology : ∀ technology, t.type.technology? = some technology →
    (∃ other, other ∈ spec.technologies) → technology ∈ spec.technologies

/-- The aliases are made of the value by those of the templates that are asked for, in their
order. -/
inductive Instantiates (spec : AliasSpec) (value : String) :
    List AliasTemplate → List Alias → Prop where
  | nil : Instantiates spec value [] []
  | made {t : AliasTemplate} {a : Alias} {ts : List AliasTemplate} {as : List Alias}
    (asked : spec.AsksFor t) (makes : t.Makes value a) (others : Instantiates spec value ts as) :
      Instantiates spec value (t :: ts) (a :: as)
  | leftOut {t : AliasTemplate} {ts : List AliasTemplate} {as : List Alias}
    (unasked : ¬ spec.AsksFor t) (others : Instantiates spec value ts as) :
      Instantiates spec value (t :: ts) as

variable {spec : AliasSpec} {value : String}

/-- The filter keeps just the templates that are asked for. -/
theorem asksFor_iff {t : AliasTemplate} :
    spec.AsksFor t ↔ AliasProvider.fits spec.types spec.technologies t := by
  have some_type : (∃ type, type ∈ spec.types) ↔ ¬ spec.types.isEmpty := Selection.exists_mem_iff
  have some_technology : (∃ other, other ∈ spec.technologies) ↔ ¬ spec.technologies.isEmpty :=
    Selection.exists_mem_iff
  unfold AliasProvider.fits AliasTemplate.technology?
  rw [Bool.and_eq_true, Bool.or_eq_true, Selection.contains_iff]
  constructor
  · rintro ⟨type, technology⟩
    rw [some_type] at type
    rw [some_technology] at technology
    refine ⟨?_, ?_⟩
    · exact Classical.or_iff_not_imp_left.2 type
    · -- types that belong to no technology pass this half of the filter
      cases h : t.type.technology? with
      | none => rfl
      | some speaks =>
        rw [Bool.or_eq_true, Selection.contains_iff]
        exact Classical.or_iff_not_imp_left.2 (technology speaks h)
  · rintro ⟨type, technology⟩
    refine ⟨fun given => type.resolve_left (some_type.1 given), fun speaks h given => ?_⟩
    rw [h, Bool.or_eq_true, Selection.contains_iff] at technology
    exact technology.resolve_left (some_technology.1 given)

/-- By induction on the templates, each of which is taken or left out by the filter as it is by the
specification. -/
theorem instantiates_iff (ts : List AliasTemplate) :
    ∀ {as : List Alias}, spec.Instantiates value ts as
    ↔ as = (ts.filter (AliasProvider.fits spec.types spec.technologies)).map
      (·.generate value) := by
  induction ts with
  | nil =>
    intro as
    constructor
    · rintro ⟨⟩
      rfl
    · rintro rfl
      exact .nil
  | cons t ts ih =>
    intro as
    -- the filter keeps the template, or leaves it out
    by_cases asked : spec.AsksFor t
    · rw [List.filter_cons_of_pos (asksFor_iff.1 asked), List.map_cons]
      constructor
      · intro h
        cases h with
        | made _ makes others => rw [AliasTemplate.makes_iff.1 makes, ih.1 others]
        | leftOut unasked _ => exact absurd asked unasked
      · rintro rfl
        exact .made asked (AliasTemplate.makes_iff.2 rfl) (ih.2 rfl)
    · rw [List.filter_cons_of_neg (mt asksFor_iff.2 asked)]
      constructor
      · intro h
        cases h with
        | made asked' _ _ => exact absurd asked' asked
        | leftOut _ others => exact ih.1 others
      · rintro rfl
        exact .leftOut asked (ih.2 rfl)

end AliasSpec

end Conference
