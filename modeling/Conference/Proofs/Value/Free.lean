import Conference.Value.Pool

/-!
# Free values

The first free value of a pool is not in use, and there is one as long as any value of the pool is
free.
-/

namespace Conference

/-- By induction on the values that remain: the search is one in their list. -/
theorem Pattern.firstFreeFrom_eq_find? (p : Pattern) (used : List String) (remaining : Nat) :
    ∀ index, p.firstFreeFrom used remaining index
      = ((List.range' index remaining).map p.valueAt).find? fun v => !used.contains v := by
  induction remaining with
  | zero => exact fun _ => rfl
  | succ remaining ih =>
    intro index
    rw [firstFreeFrom, List.range'_succ, List.map_cons, List.find?_cons, ih]
    cases used.contains (p.valueAt index) <;> rfl

/-- What the search finds is not in use. -/
theorem Pattern.firstFreeFrom_not_mem {p : Pattern} {used : List String} {value : String}
    (remaining : Nat) {index : Nat} (found : p.firstFreeFrom used remaining index = some value) :
    value ∉ used := by
  rw [firstFreeFrom_eq_find?] at found
  simpa using List.find?_some found

/-- The search finds something just if there is a free value at one of the positions that it looks
at. -/
theorem Pattern.isSome_firstFreeFrom {p : Pattern} {used : List String} (remaining : Nat)
    {index : Nat} :
    (p.firstFreeFrom used remaining index).isSome
      ↔ ∃ i, index ≤ i ∧ i < index + remaining ∧ p.valueAt i ∉ used := by
  rw [firstFreeFrom_eq_find?, List.find?_isSome]
  simp only [List.mem_map, List.mem_range'_1]
  constructor
  · rintro ⟨value, ⟨i, bounds, rfl⟩, free⟩
    exact ⟨i, bounds.1, bounds.2, by simpa using free⟩
  · rintro ⟨i, after, before, free⟩
    exact ⟨p.valueAt i, ⟨i, ⟨after, before⟩, rfl⟩, by simpa using free⟩

/-- With fewer values in use there is still a free one. -/
theorem Pool.isSome_firstFree?_of_subset {pool : Pool} {used used' : List String}
    (fewer : used' ⊆ used) (found : (pool.firstFree? used).isSome) :
    (pool.firstFree? used').isSome := by
  unfold firstFree? at found ⊢
  rw [List.findSome?_isSome_iff] at found ⊢
  obtain ⟨p, listed, free⟩ := found
  refine ⟨p, listed, ?_⟩
  unfold Pattern.firstFree? at free ⊢
  rw [Pattern.isSome_firstFreeFrom] at free ⊢
  obtain ⟨i, after, before, free⟩ := free
  exact ⟨i, after, before, fun taken => free (fewer taken)⟩

/-- What is found in a pool is not in use, whichever pattern it comes from. -/
theorem Pool.firstFree?_not_mem {pool : Pool} {used : List String} {value : String}
    (found : pool.firstFree? used = some value) : value ∉ used := by
  obtain ⟨p, -, free⟩ := List.exists_of_findSome?_eq_some found
  exact p.firstFreeFrom_not_mem _ free

end Conference
