import Conference.Connectivity
import Mathlib.Data.List.Nodup

/-!
# What the check of connectivity finds

A label stands for the first participant that bears it, so a participant with the label of an
earlier one is never found by its label and stays in a group of its own. All others are in one group
if the links bring them together. So the participants that are found to be unreachable are those
which share their label with an earlier one.
-/

namespace Conference.Connectivity

variable {labels : List String} {label : String} {place : Nat}

/-! ## Labels -/

theorem indexOf?_eq_some : indexOf? labels label = some place ↔ labels[place]? = some label
    ∧ ∀ earlier < place, labels[earlier]? ≠ some label := by
  unfold indexOf?
  rw [List.findIdx?_eq_some_iff_getElem]
  constructor
  · rintro ⟨bound, hit, first⟩
    refine ⟨by rw [List.getElem?_eq_getElem bound, eq_of_beq hit], fun earlier less same =>
      first earlier less ?_⟩
    obtain ⟨_, same⟩ := List.getElem?_eq_some_iff.1 same
    exact beq_iff_eq.2 same
  · rintro ⟨there, first⟩
    obtain ⟨bound, same⟩ := List.getElem?_eq_some_iff.1 there
    refine ⟨bound, beq_iff_eq.2 same, fun earlier less hit => first earlier less ?_⟩
    rw [List.getElem?_eq_getElem (Nat.lt_trans less bound), eq_of_beq hit]

theorem exists_indexOf? (mem : label ∈ labels) : ∃ place, indexOf? labels label = some place := by
  refine Option.isSome_iff_exists.1 ?_
  unfold indexOf?
  rw [List.findIdx?_isSome, List.any_eq_true]
  exact ⟨label, mem, beq_self_eq_true label⟩

/-- Further labels behind do not change what a label stands for. -/
theorem indexOf?_append (mem : label ∈ labels) (others : List String) :
    indexOf? (labels ++ others) label = indexOf? labels label := by
  obtain ⟨place, found⟩ := exists_indexOf? mem
  obtain ⟨there, first⟩ := indexOf?_eq_some.1 found
  obtain ⟨bound, -⟩ := List.getElem?_eq_some_iff.1 there
  rw [found, indexOf?_eq_some, List.getElem?_append_left bound]
  refine ⟨there, fun earlier less => ?_⟩
  rw [List.getElem?_append_left (Nat.lt_trans less bound)]
  exact first earlier less

/-- The labels of those participants that are not found by their label, since an earlier one bears
it too. -/
def shadowed (labels : List String) : List String :=
  labels.zipIdx.filterMap fun p => if indexOf? labels p.1 = some p.2 then none else some p.1

theorem shadowed_eq_nil_iff : shadowed labels = [] ↔ labels.Nodup := by
  unfold shadowed
  rw [List.filterMap_eq_nil_iff, List.nodup_iff_getElem?_ne_getElem?]
  constructor
  · intro found i j less bound same
    have there : labels[j]? = some labels[j] := List.getElem?_eq_getElem bound
    have last := found (labels[j], j) (List.mem_zipIdx_iff_getElem?.2 there)
    simp only [ite_eq_left_iff, reduceCtorEq, imp_false, not_not] at last
    exact (indexOf?_eq_some.1 last).2 i less (same.trans there)
  · rintro apart ⟨label, j⟩ mem
    have there := List.mem_zipIdx_iff_getElem?.1 mem
    simp only [ite_eq_left_iff, reduceCtorEq, imp_false, not_not]
    refine indexOf?_eq_some.2 ⟨there, fun i less same => ?_⟩
    obtain ⟨bound, -⟩ := List.getElem?_eq_some_iff.1 there
    exact apart i j less bound (same.trans there.symm)

/-! ## Groups -/

/-- The participant at a place is in a group of its own. -/
def Alone (groups : List Nat) (place : Nat) : Prop :=
  ∀ other, groups[other]? = some place ↔ other = place

theorem alone_range {n : Nat} (bound : place < n) : Alone (List.range n) place := by
  intro other
  rw [List.getElem?_eq_some_iff]
  constructor
  · rintro ⟨_, same⟩
    rw [List.getElem_range] at same
    exact same
  · rintro rfl
    exact ⟨by rw [List.length_range]; exact bound, List.getElem_range _⟩

/-- Who is alone stays so while others are brought together. -/
theorem Alone.merge {groups : List Nat} {a b : Nat} (alone : Alone groups place) (first : a ≠ place)
    (second : b ≠ place) : Alone (merge groups a b) place := by
  unfold Connectivity.merge
  split
  · -- neither of the merged groups is the one of the place, since it has no other member
    rename_i g h ga hb
    have kept : h ≠ place := by
      rintro rfl
      exact second ((alone b).1 hb)
    have given : g ≠ place := by
      rintro rfl
      exact first ((alone a).1 ga)
    intro other
    rw [List.getElem?_map, ← alone other, Option.map_eq_some_iff]
    constructor
    · rintro ⟨k, there, renamed⟩
      split at renamed
      · exact absurd renamed given
      · rw [there, renamed]
    · intro there
      exact ⟨place, there, if_neg kept.symm⟩
  · exact alone

/-- By induction on the links, none of which leads to the participant. -/
theorem alone_groups (links : List (String × String)) (bound : place < labels.length)
    (hidden : ∀ label, indexOf? labels label ≠ some place) : Alone (groups labels links) place := by
  have linked : ∀ found : List Nat, Alone found place →
      Alone (links.foldl (link labels) found) place := by
    induction links with
    | nil => exact fun _ alone => alone
    | cons ends links ih =>
      intro found alone
      refine ih _ ?_
      unfold link
      split
      · rename_i a b ha hb
        refine alone.merge ?_ ?_
        · -- a link names its ends by the first place of a label, and the hidden place is none
          rintro rfl
          exact hidden _ ha
        · rintro rfl
          exact hidden _ hb
      · exact alone
  exact linked _ (alone_range bound)

/-- The ends of a link are in one group in the end. -/
theorem groups_joined {links : List (String × String)} {origin target : String} {a b : Nat}
    (mem : (origin, target) ∈ links) (ha : indexOf? labels origin = some a)
    (hb : indexOf? labels target = some b) :
    (groups labels links)[a]? = (groups labels links)[b]? := by
  -- once they are in one group, later links do not take them apart
  have kept (rest : List (String × String)) : ∀ found : List Nat, found[a]? = found[b]? →
      (rest.foldl (link labels) found)[a]? = (rest.foldl (link labels) found)[b]? := by
    induction rest with
    | nil => exact fun _ same => same
    | cons ends rest ih =>
      intro found same
      refine ih _ ?_
      unfold link
      split
      · exact merge_keeps same _ _
      · exact same
  have member {label : String} {place : Nat}
      (found : indexOf? labels label = some place) {groups : List Nat}
      (whole : groups.length = labels.length) : ∃ g, groups[place]? = some g := by
    obtain ⟨bound, -⟩ := List.getElem?_eq_some_iff.1 (indexOf?_eq_some.1 found).1
    exact ⟨_, List.getElem?_eq_getElem (by rw [whole]; exact bound)⟩
  have joined : ∀ found : List Nat, found.length = labels.length →
      (links.foldl (link labels) found)[a]? = (links.foldl (link labels) found)[b]? := by
    induction links with
    | nil => cases mem
    | cons ends links ih =>
      intro found whole
      rw [List.foldl_cons]
      rcases List.mem_cons.1 mem with rfl | later
      · refine kept links _ ?_
        obtain ⟨g, hg⟩ := member ha whole
        obtain ⟨h, hh⟩ := member hb whole
        have merged : link labels found (origin, target) = merge found a b := by
          unfold link
          rw [ha, hb]
        rw [merged]
        exact merge_same hg hh
      · exact ih later _ (by rw [length_link, whole])
  exact joined _ List.length_range

/-! ## Unreachable participants -/

/-- What is picked from two lists side by side depends on what stands at each place. -/
theorem filterMap_zip {α β γ : Type} {f : α × β → Option γ} {f' : α × Nat → Option γ}
    (as : List α) :
    ∀ (bs : List β) (start : Nat), bs.length = as.length →
      (∀ place a b, as[place]? = some a → bs[place]? = some b → f (a, b) = f' (a, start + place)) →
      (as.zip bs).filterMap f = (as.zipIdx start).filterMap f' := by
  induction as with
  | nil => exact fun _ _ _ _ => rfl
  | cons a as ih =>
    intro bs start whole same
    cases bs with
    | nil => cases whole
    | cons b bs =>
      -- one place further on for each element dropped
      have rest := ih bs (start + 1) (Nat.succ.inj whole) fun place a' b' ha hb => by
        rw [same (place + 1) a' b' ha hb, Nat.add_right_comm, Nat.add_assoc]
      rw [List.zip_cons_cons, List.zipIdx_cons, List.filterMap_cons, List.filterMap_cons,
        rest, same 0 a b rfl rfl]
      rfl

/-- If the links bring those together that are found by their labels, then just the others are
unreachable. -/
theorem unreachable_eq_shadowed {others : List String} {links : List (String × String)}
    (together : ∀ place label, labels[place]? = some label → indexOf? labels label = some place →
      (groups (labels ++ others) links)[place]? = (groups (labels ++ others) links)[0]?) :
    unreachable (labels ++ others) links labels.length = shadowed labels := by
  have whole := length_groups (labels ++ others) links
  have alone (place : Nat) (label : String) (there : labels[place]? = some label)
      (apart : indexOf? labels label ≠ some place) :
        Alone (groups (labels ++ others) links) place := by
    obtain ⟨bound, -⟩ := List.getElem?_eq_some_iff.1 there
    refine alone_groups links (by rw [List.length_append]; omega) fun label' found => apart ?_
    obtain ⟨there', -⟩ := indexOf?_eq_some.1 found
    rw [List.getElem?_append_left bound, there] at there'
    cases there'
    rwa [indexOf?_append (List.mem_of_getElem? there)] at found
  unfold unreachable shadowed
  simp only
  generalize groups (labels ++ others) links = found at *
  have cut : ((labels ++ others).zip found).take labels.length
      = labels.zip (found.take labels.length) := by
    rw [List.zip, List.take_zipWith, List.take_left]
  rw [cut]
  refine filterMap_zip labels _ 0 (by rw [List.length_take, whole, List.length_append]; omega) ?_
  intro place label group there belongs
  obtain ⟨bound, -⟩ := List.getElem?_eq_some_iff.1 there
  rw [List.getElem?_take_of_lt bound] at belongs
  rw [Nat.zero_add, List.head?_eq_getElem?, ← belongs]
  by_cases own : indexOf? labels label = some place
  · rw [if_pos (together place label there own), if_pos own]
  · -- the first participant is found by its label, so this is another one
    rw [if_neg own, if_neg]
    intro same
    have apart := alone place label there own
    obtain rfl : 0 = place := (apart 0).1 (same.symm.trans ((apart place).2 rfl))
    exact own (indexOf?_eq_some.2 ⟨there, fun _ never => nomatch never⟩)

end Conference.Connectivity
