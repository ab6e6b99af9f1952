import Conference.TechnologyPlan
import Mathlib.Data.List.Sublists

/-!
# Technology plans reach every group

Each set of a plan has a technology of every group: the one that was chosen from the group, and
which no later choice takes out. That only so many combinations are kept makes no difference, since
there are not that many sets of technologies. So whoever speaks a technology of every group speaks
all of some set of the plan.
-/

namespace Conference.TechnologySet

/-- The sets have a technology in common. -/
def Meets (s t : TechnologySet) : Prop := ∃ technology ∈ s, technology ∈ t

theorem Meets.insert {s t : TechnologySet} (h : Meets s t) (technology : Technology) :
    Meets (s.insert technology) t := by
  obtain ⟨common, left, right⟩ := h
  exact ⟨common, Selection.mem_insert.2 (Or.inr left), right⟩

theorem mem_of_mem_distinct {sets : List TechnologySet} {s : TechnologySet}
    (h : s ∈ distinct sets) :
    s ∈ sets := by
  -- by induction on the sets, with those found so far generalized
  have collected (rest : List TechnologySet) : ∀ found : List TechnologySet,
      s ∈ rest.foldl (fun found t => if found.contains t then found else found ++ [t]) found →
        s ∈ found ∨ s ∈ rest := by
    induction rest with
    | nil => exact fun _ mem => Or.inl mem
    | cons t rest ih =>
      intro found mem
      rw [List.foldl_cons] at mem
      rcases ih _ mem with early | late
      · split at early
        · exact Or.inl early
        · rcases List.mem_append.1 early with early | this
          · exact Or.inl early
          · rw [List.mem_singleton.1 this]
            exact Or.inr List.mem_cons_self
      · exact Or.inr (List.mem_cons_of_mem _ late)
  rcases collected sets [] h with never | mem
  · cases never
  · exact mem

/-- An extended combination is an earlier one with a technology of the group. -/
theorem exists_of_mem_extend {group : TechnologySet} {combinations : List TechnologySet}
    {s : TechnologySet} (h : s ∈ extend group combinations) :
    ∃ t ∈ combinations, ∃ technology ∈ group, s = t.insert technology := by
  have mem := mem_of_mem_distinct (List.mem_of_mem_take h)
  obtain ⟨t, kept, extended⟩ := List.mem_flatMap.1 mem
  obtain ⟨technology, chosen, rfl⟩ := List.mem_map.1 extended
  exact ⟨t, kept, technology, chosen, rfl⟩

/-- By induction on the groups that are left: what the combinations meet already they go on
meeting. -/
theorem meets_of_mem_combine (groups : List TechnologySet) :
    ∀ {combinations : List TechnologySet} {s : TechnologySet}, s ∈ combine combinations groups →
      (∀ group ∈ groups, Meets s group)
        ∧ ∀ group, (∀ t ∈ combinations, Meets t group) → Meets s group := by
  induction groups with
  | nil => exact fun mem => ⟨fun _ never => (nomatch never), fun _ all => all _ mem⟩
  | cons first groups ih =>
    intro combinations s mem
    obtain ⟨rest, onward⟩ := ih mem
    -- a technology of the first group is in each combination from here on, and none is ever taken
    -- out
    have chosen : Meets s first := by
      refine onward first fun t extended => ?_
      obtain ⟨_, -, technology, choice, rfl⟩ := exists_of_mem_extend extended
      exact ⟨technology, Selection.mem_insert.2 (Or.inl rfl), choice⟩
    refine ⟨fun group mem => ?_, fun group all => ?_⟩
    · rcases List.mem_cons.1 mem with rfl | later
      · exact chosen
      · exact rest group later
    · refine onward group fun t extended => ?_
      obtain ⟨early, kept, technology, -, rfl⟩ := exists_of_mem_extend extended
      exact (all early kept).insert technology

theorem insertSorted_perm (s : TechnologySet) (sorted : List TechnologySet) :
    (insertSorted s sorted).Perm (s :: sorted) := by
  induction sorted with
  | nil => exact .refl _
  | cons t sorted ih =>
    rw [insertSorted]
    split
    · exact (ih.cons t).trans (.swap s t sorted)
    · exact .refl _

theorem sorted_perm (sets : List TechnologySet) : (sets.foldr insertSorted []).Perm sets := by
  induction sets with
  | nil => exact .refl _
  | cons s sets ih => exact (insertSorted_perm s _).trans (ih.cons s)

/-- Whoever speaks all technologies of a combination speaks one of every group. -/
theorem meets_of_mem_combinations {groups : List TechnologySet} {s : TechnologySet}
    (h : s ∈ combinations groups) : ∀ group ∈ groups, Meets s group :=
  (meets_of_mem_combine groups ((sorted_perm _).mem_iff.1 h)).1

/-! ## No choice is left out -/

theorem distinct_concat (sets : List TechnologySet) (s : TechnologySet) :
    distinct (sets ++ [s]) = if (distinct sets).contains s then distinct sets
      else distinct sets ++ [s] := by
  unfold distinct
  rw [List.foldl_append]
  rfl

theorem mem_distinct_of_mem {sets : List TechnologySet} {s : TechnologySet} (h : s ∈ sets) :
    s ∈ distinct sets := by
  induction sets using List.reverseRecOn with
  | nil => cases h
  | append_singleton sets t ih =>
    rw [distinct_concat]
    rcases List.mem_append.1 h with early | last
    · split
      · exact ih early
      · exact List.mem_append_left _ (ih early)
    · rw [List.mem_singleton.1 last]
      split
      · rename_i there
        exact List.contains_iff_mem.1 there
      · exact List.mem_append_right _ List.mem_cons_self

theorem nodup_distinct (sets : List TechnologySet) : (distinct sets).Nodup := by
  induction sets using List.reverseRecOn with
  | nil => exact List.nodup_nil
  | append_singleton sets t ih =>
    rw [distinct_concat]
    split
    · exact ih
    · rename_i absent
      rw [List.contains_iff_mem] at absent
      exact ih.append (List.nodup_singleton t) (List.disjoint_singleton.2 absent)

/-- There are 32 sets of technologies. -/
theorem length_le_of_nodup {sets : List TechnologySet} (nodup : sets.Nodup) : sets.length ≤ 32 := by
  have lists : (sets.map (·.toList)).Nodup := nodup.map fun _ _ same => Selection.eq_of_toList same
  have among : sets.map (·.toList) ⊆ (Listed.all : List Technology).sublists := by
    intro l mem
    obtain ⟨s, -, rfl⟩ := List.mem_map.1 mem
    rw [List.mem_sublists, s.canonical]
    exact List.filter_sublist
  have bound := (List.subperm_of_subset lists among).length_le
  rw [List.length_map, List.length_sublists] at bound
  exact bound

/-- The bound on their number cuts off no combination. -/
theorem extend_eq (group : TechnologySet) (combinations : List TechnologySet) :
    extend group combinations = distinct (combinations.flatMap fun s =>
      group.toList.map (s.insert ·)) := by
  refine List.take_of_length_le (Nat.le_trans (length_le_of_nodup (nodup_distinct _)) ?_)
  decide

theorem mem_extend {group : TechnologySet} {combinations : List TechnologySet} {s : TechnologySet} :
    s ∈ extend group combinations
      ↔ ∃ t ∈ combinations, ∃ technology ∈ group, s = t.insert technology := by
  refine ⟨exists_of_mem_extend, ?_⟩
  rintro ⟨t, kept, technology, choice, rfl⟩
  rw [extend_eq]
  exact mem_distinct_of_mem (List.mem_flatMap.2 ⟨t, kept, List.mem_map_of_mem choice⟩)

/-- By induction on the groups that are left: a combination within `speaks` can be extended by a
choice within it. -/
theorem exists_mem_combine {speaks : TechnologySet} (groups : List TechnologySet) :
    ∀ {combinations : List TechnologySet}, (∃ t ∈ combinations, t.isSubset speaks) →
      (∀ group ∈ groups, Meets speaks group) →
        ∃ s ∈ combine combinations groups, s.isSubset speaks := by
  induction groups with
  | nil => exact fun within _ => within
  | cons first groups ih =>
    rintro combinations ⟨t, kept, within⟩ meets
    -- out of each group a technology is chosen that is spoken
    obtain ⟨technology, spoken, choice⟩ := meets first List.mem_cons_self
    refine ih ⟨t.insert technology, mem_extend.2 ⟨t, kept, technology, choice, rfl⟩, ?_⟩
      fun group mem => meets group (List.mem_cons_of_mem _ mem)
    rw [Selection.isSubset_iff] at within ⊢
    intro a mem
    rcases Selection.mem_insert.1 mem with rfl | mem
    · exact spoken
    · exact within a mem

/-- Whoever speaks a technology of every group speaks all technologies of some combination. -/
theorem exists_mem_combinations {groups : List TechnologySet} {speaks : TechnologySet}
    (meets : ∀ group ∈ groups, Meets speaks group) :
    ∃ s ∈ combinations groups, s.isSubset speaks := by
  have none_yet : (Selection.empty : TechnologySet).isSubset speaks := rfl
  obtain ⟨s, mem, within⟩ :=
    exists_mem_combine groups ⟨.empty, List.mem_singleton_self _, none_yet⟩ meets
  exact ⟨s, (sorted_perm _).mem_iff.2 mem, within⟩

end Conference.TechnologySet
