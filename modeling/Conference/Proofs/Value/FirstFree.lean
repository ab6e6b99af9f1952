import Conference.Proofs.Value.Enumeration
import Conference.Proofs.Value.Free
import Mathlib.Data.Finset.Card

/-!
# The first free value

A pool hands out the first value that is not in use: the patterns are searched in their order, each
from its first value on. The values of one pattern are all different, so those that the search has
passed in one pattern are no more than the values in use. Hence it stops early however many values
there are, and it stops somewhere if one pattern alone has more values than are in use. Values that
several patterns share change nothing of this.
-/

namespace Conference

/-- The value is free and stands at an index of a pattern. All before it in the pattern are in use,
and so are all values of the earlier patterns. -/
structure Pool.FoundAt (pool : Pool) (used : List String) (earlier : List Pattern) (p : Pattern)
    (index : Nat) (value : String) : Prop where
  listed : ∃ later, pool.patterns = earlier ++ p :: later
  stands : p.values[index]? = some value
  free : value ∉ used
  passed : ∀ v ∈ p.values.take index, v ∈ used
  exhausted : ∀ q ∈ earlier, ∀ v ∈ q.values, v ∈ used

/-! ## The search as a search in a list -/

/-- The search of a pattern stops at the first value that is not in use. -/
theorem Pattern.firstFree?_eq_find? (p : Pattern) (used : List String) :
    p.firstFree? used = p.values.find? fun v => !used.contains v := by
  rw [firstFree?, firstFreeFrom_eq_find?, values, List.range_eq_range']

/-- The search goes on from pattern to pattern, as if their values stood one behind the other. -/
theorem Pool.firstFree?_eq_find? (pool : Pool) (used : List String) :
    pool.firstFree? used = pool.values.find? fun v => !used.contains v := by
  rw [firstFree?, values, List.find?_flatMap]
  simp only [Pattern.firstFree?_eq_find?]

/-! ## Where a value is found -/

/-- Nothing is found in a pattern just if all of its values are in use. -/
theorem Pattern.firstFree?_eq_none {p : Pattern} {used : List String} :
    p.firstFree? used = none ↔ ∀ v ∈ p.values, v ∈ used := by
  rw [firstFree?_eq_find?, List.find?_eq_none]
  simp

/-- A value is found in a pattern just if it stands at some index, is free, and all values before
that index are in use. -/
theorem Pattern.firstFree?_eq_some {p : Pattern} {used : List String} {value : String} :
    p.firstFree? used = some value
      ↔ ∃ index : Nat, p.values[index]? = some value ∧ value ∉ used
      ∧ ∀ v ∈ p.values.take index, v ∈ used := by
  rw [firstFree?_eq_find?, List.find?_eq_some_iff_append]
  constructor
  · rintro ⟨free, before, after, split, passed⟩
    -- the index counts the values before the one that is found
    refine ⟨before.length, ?_, by simpa using free, ?_⟩
    · simp [split]
    · rw [split, List.take_left]
      intro v mem
      simpa using passed v mem
  · rintro ⟨index, stands, free, passed⟩
    obtain ⟨bound, here⟩ := List.getElem?_eq_some_iff.1 stands
    refine ⟨by simpa using free, p.values.take index, p.values.drop (index + 1), ?_, ?_⟩
    · rw [← here, ← List.drop_eq_getElem_cons bound, List.take_append_drop]
    · intro v mem
      simpa using passed v mem

/-- A value is found in a pool just if it is found in one of the patterns and nothing is found in
the patterns before. -/
theorem Pool.firstFree?_eq_some {pool : Pool} {used : List String} {value : String} :
    pool.firstFree? used = some value
      ↔ ∃ earlier p index, pool.FoundAt used earlier p index value := by
  rw [firstFree?, List.findSome?_eq_some_iff]
  constructor
  · rintro ⟨earlier, p, later, split, found, none_before⟩
    obtain ⟨index, stands, free, passed⟩ := Pattern.firstFree?_eq_some.1 found
    exact ⟨earlier, p, index, ⟨later, split⟩, stands, free, passed,
      fun q mem => Pattern.firstFree?_eq_none.1 (none_before q mem)⟩
  · rintro ⟨earlier, p, index, ⟨later, split⟩, stands, free, passed, exhausted⟩
    exact ⟨earlier, p, later, split, Pattern.firstFree?_eq_some.2 ⟨index, stands, free, passed⟩,
      fun q mem => Pattern.firstFree?_eq_none.2 (exhausted q mem)⟩

/-- Nothing is found in a pool just if all values of all patterns are in use. -/
theorem Pool.firstFree?_eq_none {pool : Pool} {used : List String} :
    pool.firstFree? used = none ↔ ∀ p ∈ pool.patterns, ∀ v ∈ p.values, v ∈ used := by
  rw [firstFree?, List.findSome?_eq_none_iff]
  simp only [Pattern.firstFree?_eq_none]

/-! ## How far the search goes -/

/-- Different texts that are all in use are no more than there are in use. -/
theorem length_le_of_used {values used : List String} (nodup : values.Nodup)
    (all : ∀ v ∈ values, v ∈ used) :
    values.length ≤ used.toFinset.card := by
  rw [← List.toFinset_card_of_nodup nodup]
  apply Finset.card_le_card
  intro v mem
  rw [List.mem_toFinset] at mem ⊢
  exact all v mem

section Parsed

variable {pool : Pool} (parsed : ∀ p ∈ pool.patterns, Pattern.parse p.source = .ok p)
include parsed

theorem Pool.nodup_values_of_parsed {p : Pattern} (mem : p ∈ pool.patterns) : p.values.Nodup :=
  Pattern.nodup_values (Pattern.sized_of_parse (parsed p mem))

/-- A pattern whose values are all in use has no more values than are in use. -/
theorem Pool.capacity_le_of_used {used : List String} {p : Pattern} (mem : p ∈ pool.patterns)
    (all : ∀ v ∈ p.values, v ∈ used) : p.capacity ≤ used.toFinset.card := by
  rw [← p.length_values]
  exact length_le_of_used (nodup_values_of_parsed parsed mem) all

/-- No more values than are in use stand before the one that is found, and no pattern that is passed
over has more values than are in use. -/
theorem Pool.FoundAt.early {used : List String} {earlier : List Pattern} {p : Pattern} {index : Nat}
    {value : String} (found : pool.FoundAt used earlier p index value) :
    index ≤ used.toFinset.card ∧ ∀ q ∈ earlier, q.capacity ≤ used.toFinset.card := by
  obtain ⟨later, split⟩ := found.listed
  have member {q : Pattern} (mem : q ∈ earlier ++ p :: later) : q ∈ pool.patterns := split ▸ mem
  constructor
  · have nodup : p.values.Nodup := nodup_values_of_parsed parsed (member (by simp))
    have bound : index < p.values.length := (List.getElem?_eq_some_iff.1 found.stands).1
    -- the values before the index are different from each other, and all are in use
    have passed := length_le_of_used (nodup.sublist (List.take_sublist index p.values)) found.passed
    rw [List.length_take] at passed
    omega
  · intro q mem
    exact capacity_le_of_used parsed (member (by simp [mem])) (found.exhausted q mem)

end Parsed

/-- A pool hands out the first of its values that is not in use, and none just if all values of all
patterns are in use. The value has an index in its pattern that is no larger than the number of
values in use, and no earlier pattern has more values than that. A pattern with more values than are
in use makes sure that there is a free one. -/
theorem Pool.first_free_is_early {pool : Pool}
    (parsed : ∀ p ∈ pool.patterns, Pattern.parse p.source = .ok p) (used : List String) :
    pool.firstFree? used = pool.values.find? (fun v => !used.contains v)
    ∧ (∀ value, pool.firstFree? used = some value
      ↔ ∃ earlier p index, pool.FoundAt used earlier p index value)
    ∧ (pool.firstFree? used = none ↔ ∀ p ∈ pool.patterns, ∀ v ∈ p.values, v ∈ used)
    ∧ (∀ {earlier p index value}, pool.FoundAt used earlier p index value →
      index ≤ used.toFinset.card ∧ ∀ q ∈ earlier, q.capacity ≤ used.toFinset.card)
    ∧ ((∃ p ∈ pool.patterns, used.toFinset.card < p.capacity) →
      ∃ value, pool.firstFree? used = some value) := by
  refine ⟨pool.firstFree?_eq_find? used, fun value => firstFree?_eq_some, firstFree?_eq_none,
    fun found => found.early parsed, ?_⟩
  rintro ⟨p, mem, more⟩
  cases result : pool.firstFree? used with
  | some value => exact ⟨value, rfl⟩
  | none =>
    have all := firstFree?_eq_none.1 result p mem
    have := capacity_le_of_used parsed mem all
    omega

/-- All values of the first pattern are in use and so is the first value of the second, with which
it shares ten. The number of values of the third is cut off. -/
theorem Pool.crowded_pool_is_searched_early :
    let first : Pattern := ⟨"1\x7bdigit:1\x7d", [.literal ['1'], .digits 1]⟩
    let second : Pattern := ⟨"\x7bdigit:2\x7d", [.digits 2]⟩
    let third : Pattern := ⟨"\x7bdigit:18\x7d\x7bdigit:2\x7d", [.digits 18, .digits 2]⟩
    let pool : Pool := ⟨[first, second, third], false⟩
    let used := ["00", "10", "11", "12", "13", "14", "15", "16", "17", "18", "19", "00"]
    (∀ p ∈ pool.patterns, Pattern.parse p.source = .ok p)
    ∧ used.toFinset.card = 11 ∧ third.capacity = 2 ^ 64 - 1
    ∧ pool.FoundAt used [first] second 1 "01" ∧ pool.firstFree? used = some "01"
    ∧ 1 ≤ used.toFinset.card ∧ first.capacity ≤ used.toFinset.card
    ∧ ∃ value, pool.firstFree? used = some value := by
  intro first second third pool used
  have read₁ : Pattern.parse "1\x7bdigit:1\x7d" = .ok first := by rfl
  have read₂ : Pattern.parse "\x7bdigit:2\x7d" = .ok second := by rfl
  have read₃ : Pattern.parse "\x7bdigit:18\x7d\x7bdigit:2\x7d" = .ok third := by rfl
  have parsed : ∀ p ∈ pool.patterns, Pattern.parse p.source = .ok p := by
    simp only [pool, List.forall_mem_cons]
    exact ⟨read₁, read₂, read₃, nofun⟩
  have count : used.toFinset.card = 11 := by decide
  have cut : third.capacity = 2 ^ 64 - 1 := by decide
  have found : pool.FoundAt used [first] second 1 "01" :=
    { listed := ⟨[third], rfl⟩
      stands := by decide
      free := by decide
      passed := by decide
      exhausted := by decide }
  obtain ⟨-, given, -, early, exists_free⟩ := Pool.first_free_is_early parsed used
  -- eleven values are in use, and the last pattern alone has more
  have more : ∃ p ∈ pool.patterns, used.toFinset.card < p.capacity :=
    ⟨third, by simp [pool], by rw [count, cut]; decide⟩
  exact ⟨parsed, count, cut, found, (given "01").2 ⟨_, _, _, found⟩, (early found).1,
    (early found).2 first (by simp), exists_free more⟩

end Conference
