import Conference.Proofs.Report.Growth
import Mathlib.Data.List.Nodup

/-!
# Outlines hold every report once

A new report is listed last under its parent, or last among the roots, and a mark changes no list. A
report is in the outline of a root if that root is at its top. Siblings have nothing below them in
common, as the way up from a report is unique and parents are older, and each report has a root at
its top. So the outlines of all roots, one after the other, hold all reports, each of them once.
-/

namespace Conference.ReportForest

variable {f : ReportForest} {id top : Nat}

/-- The reports under a parent are listed once each, as they are places of the arena. -/
theorem withParent_nodup (f : ReportForest) (p : Option Nat) : (f.withParent p).Nodup := by
  have whole : (f.entries.zipIdx.map (·.2)).Nodup := by
    rw [List.zipIdx_map_snd]
    exact List.nodup_range'
  exact whole.sublist (List.Sublist.map _ List.filter_sublist)

theorem lt_size_of_mem_withParent {p : Option Nat} (mem : id ∈ f.withParent p) : id < f.size := by
  obtain ⟨e, found, -⟩ := mem_withParent.1 mem
  exact lt_size_of_get? found

theorem parent?_of_mem_withParent {p : Option Nat} (mem : id ∈ f.withParent p) :
    f.parent? id = p := by
  obtain ⟨e, found, parent⟩ := mem_withParent.1 mem
  rw [parent?, found]
  exact parent

/-- The children of a report are those that have it as the parent. -/
theorem mem_children {parent : Nat} : id ∈ f.children parent ↔ f.parent? id = some parent := by
  rw [parent?_eq_some]
  exact mem_withParent

/-- A parent is older than its child. -/
theorem Aged.lt_of_parent? (aged : f.Aged) {parent : Nat} (link : f.parent? id = some parent) :
    parent < id := by
  obtain ⟨e, found, under⟩ := parent?_eq_some.1 link
  exact aged found under

/-! ## Who is listed under whom -/

/-- Nothing is below a report that does not exist. -/
theorem children_eq_nil (aged : f.Aged) (absent : f.size ≤ id) : f.children id = [] := by
  refine List.eq_nil_iff_forall_not_mem.2 fun child mem => ?_
  have below := lt_size_of_mem_withParent mem
  have younger := aged.lt_of_parent? (mem_children.1 mem)
  omega

/-- A new report is listed under its own parent and nowhere else. -/
theorem withParent_concat (f : ReportForest) (e : Entry) (p : Option Nat) :
    (⟨f.entries ++ [e]⟩ : ReportForest).withParent p
      = f.withParent p ++ if e.parent = p then [f.size] else [] :=
  withParent_append nofun

/-- A new root is no child. -/
theorem children_addRoot (report : Report) (id : Nat) :
    (f.addRoot report).children id = f.children id := by
  refine (f.withParent_concat _ _).trans ?_
  rw [if_neg (by simp), List.append_nil]
  rfl

/-- It is listed behind the other roots. -/
theorem roots_addRoot (f : ReportForest) (report : Report) :
    (f.addRoot report).roots = f.roots ++ [f.size] := by
  refine (f.withParent_concat _ _).trans ?_
  rw [if_pos rfl]
  rfl

section addChild

variable {parent : Nat}

theorem addChild_of_lt (below : parent < f.size) {report : Report} :
    f.addChild parent report = ⟨f.entries ++ [⟨report, false, some parent⟩]⟩ := by
  rw [addChild, if_pos below]

theorem addChild_of_not_lt (absent : ¬ parent < f.size) {report : Report} :
    f.addChild parent report = f.addRoot report := by
  rw [addChild, if_neg absent]
  rfl

/-- A new child is listed behind the other children of its parent. -/
theorem children_addChild (below : parent < f.size) (report : Report) (id : Nat) :
    (f.addChild parent report).children id
      = f.children id ++ if parent = id then [f.size] else [] := by
  rw [addChild_of_lt below]
  refine (f.withParent_concat _ _).trans ?_
  simp only [Option.some.injEq]
  rfl

/-- A new child is no root. -/
theorem roots_addChild (below : parent < f.size) {report : Report} :
    (f.addChild parent report).roots = f.roots := by
  rw [addChild_of_lt below]
  refine (f.withParent_concat _ _).trans ?_
  rw [if_neg (by simp), List.append_nil]
  rfl

end addChild

/-- A mark changes no parent, and the parents tell who is listed where. -/
theorem withParent_markError (f : ReportForest) (id : Nat) (p : Option Nat) :
    (f.markError id).withParent p = f.withParent p := by
  have by_parents (g : ReportForest) :
      g.withParent p = ((g.entries.map (·.parent)).zipIdx.filter (·.1 == p)).map (·.2) := by
    rw [List.zipIdx_map, List.filter_map, List.map_map]
    rfl
  have same : (f.markError id).entries.map (·.parent) = f.entries.map (·.parent) := by
    refine List.ext_getElem? fun i => ?_
    rw [List.getElem?_map, List.getElem?_map, markError, List.getElem?_modify]
    cases f.entries[i]? with
    | none => rfl
    | some e =>
      show some (if id = i then _ else e).parent = _
      split <;> rfl
  rw [by_parents, by_parents, same]

/-! ## Each report is in one outline -/

/-- By induction on the report, as the parent is older. -/
theorem exists_root (aged : f.Aged) (below : id < f.size) : ∃ root ∈ f.roots, f.Above root id := by
  induction id using Nat.strongRecOn with
  | ind id ih =>
    obtain ⟨e, found⟩ := exists_get? below
    cases parent : e.parent with
    | none => exact ⟨id, mem_withParent.2 ⟨e, found, parent⟩, .refl⟩
    | some p =>
      have older := aged found parent
      obtain ⟨root, mem, above⟩ := ih p older (Nat.lt_trans older below)
      exact ⟨root, mem, above.head (parent?_eq_some.2 ⟨e, found, parent⟩)⟩

/-- Different reports under the same parent, and different roots, are not above one another. -/
theorem not_above_of_siblings (aged : f.Aged) {a b : Nat} (siblings : f.parent? a = f.parent? b)
    (different : a ≠ b) : ¬ f.Above a b := by
  intro above
  rcases Relation.ReflTransGen.cases_head above with same | ⟨parent, link, upper⟩
  · exact different same.symm
  · -- the parent of both would be above one of them
    have le := Above.le upper aged
    have older := aged.lt_of_parent? (siblings.trans link)
    omega

/-- There is only one way up from a report. -/
theorem eq_of_above_of_siblings (aged : f.Aged) {a b : Nat} (siblings : f.parent? a = f.parent? b)
    (first : f.Above a id) (second : f.Above b id) : a = b := by
  by_contra different
  have unique : Relator.RightUnique fun child parent => f.parent? child = some parent := by
    intro child parent parent' link link'
    exact Option.some.inj (link.symm.trans link')
  rcases Relation.ReflTransGen.total_of_right_unique unique first second with above | above
  · exact not_above_of_siblings aged siblings.symm (Ne.symm different) above
  · exact not_above_of_siblings aged siblings different above

/-- What an outline lists is below its top. By induction on the levels. -/
theorem above_of_mem_outlineWithin (levels : Nat) :
    ∀ {depth top : Nat}, id ∈ (f.outlineWithin levels depth top).map (·.2) →
      f.Above top id ∧ id < f.size := by
  induction levels with
  | zero => exact fun never => nomatch never
  | succ levels ih =>
    intro depth top mem
    rw [outlineWithin] at mem
    split at mem
    · rename_i below
      rw [List.map_cons, List.map_flatMap] at mem
      rcases List.mem_cons.1 mem with rfl | deeper
      · exact ⟨.refl, below⟩
      · obtain ⟨child, under, mem'⟩ := List.mem_flatMap.1 deeper
        -- what lies below a child lies below its parent
        obtain ⟨above, below'⟩ := ih mem'
        exact ⟨Relation.ReflTransGen.tail above (mem_children.1 under), below'⟩
    · cases mem

/-- The subtree of a report consists of just what is below it: no level is missing, since parents
are older. -/
theorem mem_subtree (aged : f.Aged) : id ∈ f.subtree top ↔ f.Above top id ∧ id < f.size :=
  ⟨above_of_mem_outlineWithin f.size, fun ⟨above, below⟩ => above.mem_subtree aged below⟩

/-- The outlines of siblings hold no report in common. -/
theorem nodup_flatMap_outline (aged : f.Aged) (levels depth : Nat) (p : Option Nat)
    (each : ∀ top, ((f.outlineWithin levels depth top).map (·.2)).Nodup) :
    ((f.withParent p).flatMap fun top => (f.outlineWithin levels depth top).map (·.2)).Nodup := by
  refine List.nodup_flatMap.2 ⟨fun top _ => each top, ?_⟩
  refine (f.withParent_nodup p).pairwise_of_forall_ne fun a ha b hb different id mem mem' => ?_
  have siblings : f.parent? a = f.parent? b :=
    (parent?_of_mem_withParent ha).trans (parent?_of_mem_withParent hb).symm
  exact different (eq_of_above_of_siblings aged siblings (above_of_mem_outlineWithin levels mem).1
    (above_of_mem_outlineWithin levels mem').1)

/-- An outline lists nothing twice: the top is older than all below it, and the children have
nothing in common. -/
theorem nodup_outlineWithin (aged : f.Aged) (levels : Nat) :
    ∀ depth top : Nat, ((f.outlineWithin levels depth top).map (·.2)).Nodup := by
  induction levels with
  | zero => exact fun _ _ => List.nodup_nil
  | succ levels ih =>
    intro depth top
    rw [outlineWithin]
    split
    · rw [List.map_cons, List.map_flatMap]
      refine List.nodup_cons.2 ⟨fun mem => ?_, nodup_flatMap_outline aged levels (depth + 1)
        (some top) (ih (depth + 1))⟩
      obtain ⟨child, under, mem'⟩ := List.mem_flatMap.1 mem
      -- the top is older than its children, so it does not come again below them
      have le := (above_of_mem_outlineWithin levels mem').1.le aged
      have younger := aged.lt_of_parent? (mem_children.1 under)
      omega
    · exact List.nodup_nil

/-- All reports are in the outline, each of them once. -/
theorem outlineAll_perm (aged : f.Aged) : (f.outlineAll.map (·.2)).Perm (List.range f.size) := by
  rw [outlineAll, List.map_flatMap]
  have nodup := nodup_flatMap_outline aged f.size 0 none (nodup_outlineWithin aged f.size 0)
  refine (List.perm_ext_iff_of_nodup nodup List.nodup_range).2 fun id => ?_
  rw [List.mem_range, List.mem_flatMap]
  constructor
  · rintro ⟨root, -, mem⟩
    exact ((mem_subtree aged).1 mem).2
  · intro below
    obtain ⟨root, mem, above⟩ := exists_root aged below
    exact ⟨root, mem, (mem_subtree aged).2 ⟨above, below⟩⟩

end Conference.ReportForest
