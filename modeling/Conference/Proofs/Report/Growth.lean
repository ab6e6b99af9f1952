import Conference.Report.Forest
import Mathlib.Logic.Relation

/-!
# How report forests grow

A report that is there stays where it is and goes on saying what it said; all that can happen to it
is that it is marked as an error. What is added while a report is open comes under that report, or
else under something that has been added before. So parents are always older than their children,
and the ways up from a report end.
-/

namespace Conference.ReportForest

variable {f g h : ReportForest} {top : Option Nat} {id own : Nat} {e : Entry}

theorem lt_size_of_get? (found : f.get? id = some e) : id < f.size :=
  (List.getElem?_eq_some_iff.1 found).1

theorem exists_get? (below : id < f.size) : ∃ e, f.get? id = some e :=
  ⟨_, List.getElem?_eq_getElem below⟩

/-- A forest in which everything of another is found is at least as large. -/
theorem size_le_of_get? (kept : ∀ {id e}, f.get? id = some e → ∃ e', g.get? id = some e') :
    f.size ≤ g.size := by
  cases last : f.size with
  | zero => exact Nat.zero_le _
  | succ n =>
    have below : n < f.size := by omega
    obtain ⟨e, found⟩ := exists_get? below
    obtain ⟨e', found'⟩ := kept found
    exact lt_size_of_get? found'

/-! ## Marks -/

/-- Each report of the first forest is in its place in the second one, and an error there if it was
one. -/
def Extends (f g : ReportForest) : Prop :=
  ∀ (id : Nat) (e : Entry), f.get? id = some e → ∃ e', g.get? id = some e' ∧ e'.report = e.report
    ∧ e'.parent = e.parent ∧ (e.isError → e'.isError)

theorem Extends.refl (f : ReportForest) : f.Extends f := fun _ _ found => ⟨_, found, rfl, rfl, id⟩

/-- Marks stay, so extending goes on. -/
theorem Extends.trans (first : f.Extends g) (second : g.Extends h) : f.Extends h := by
  intro id e found
  obtain ⟨e', found', report', parent', error'⟩ := first id e found
  obtain ⟨e'', found'', report'', parent'', error''⟩ := second id e' found'
  exact ⟨e'', found'', report''.trans report', parent''.trans parent', fun marked =>
    error'' (error' marked)⟩

/-- Marking changes no report and no parent. -/
theorem extends_markError (f : ReportForest) (marked : Nat) : f.Extends (f.markError marked) := by
  intro id e found
  rw [f.get?_markError, found, Option.map_some]
  refine ⟨_, rfl, ?_⟩
  split
  · exact ⟨rfl, rfl, fun _ => rfl⟩
  · exact ⟨rfl, rfl, fun error => error⟩

theorem get?_markError_self (found : f.get? id = some e) :
    (f.markError id).get? id = some { e with isError := true } := by
  rw [f.get?_markError, found, Option.map_some, if_pos rfl]

/-! ## Additions -/

/-- The second forest is the first one with reports added, under `top` or under one another. -/
structure Adds (top : Option Nat) (f g : ReportForest) : Prop where
  kept : ∀ {id e}, f.get? id = some e → g.get? id = some e
  parent : ∀ {id e}, g.get? id = some e → f.size ≤ id →
    e.parent = top ∨ ∃ p, e.parent = some p ∧ f.size ≤ p ∧ p < id

namespace Adds

theorem refl (top : Option Nat) (f : ReportForest) : f.Adds top f where
  kept := fun found => found
  parent := fun found new => absurd (lt_size_of_get? found) (Nat.not_lt.2 new)

theorem size_le (added : f.Adds top g) : f.size ≤ g.size :=
  size_le_of_get? fun found => ⟨_, added.kept found⟩

theorem extend (added : f.Adds top g) : f.Extends g :=
  fun _ _ found => ⟨_, added.kept found, rfl, rfl, fun error => error⟩

/-- An entry of the later forest that is not new is the entry of the earlier one. -/
theorem get?_of_lt (added : f.Adds top g) (found : g.get? id = some e) (below : id < f.size) :
    f.get? id = some e := by
  obtain ⟨e', there⟩ := exists_get? below
  rw [added.kept there] at found
  rwa [← Option.some.inj found]

/-- Reports that come in two parts have come under the same top, or under another new one. -/
theorem trans (first : f.Adds top g) (second : g.Adds top h) : f.Adds top h where
  kept := fun found => second.kept (first.kept found)
  parent := by
    intro id e found new
    -- new in the first part or new in the second
    rcases Nat.lt_or_ge id g.size with earlier | later
    · exact first.parent (second.get?_of_lt found earlier) new
    · rcases second.parent found later with under | ⟨p, parent, above, below⟩
      · exact Or.inl under
      · exact Or.inr ⟨p, parent, Nat.le_trans first.size_le above, below⟩

/-- What is added under a new report is added with it. -/
theorem under (first : f.Adds top g) (new : f.size ≤ own) (there : own < g.size)
    (second : g.Adds (some own) h) :
    f.Adds top h where
  kept := fun found => second.kept (first.kept found)
  parent := by
    intro id e found added
    rcases Nat.lt_or_ge id g.size with earlier | later
    · exact first.parent (second.get?_of_lt found earlier) added
    · refine Or.inr ?_
      rcases second.parent found later with under | ⟨p, parent, above, below⟩
      · exact ⟨own, under, new, by omega⟩
      · exact ⟨p, parent, Nat.le_trans first.size_le above, below⟩

/-- A mark on a new report leaves the old ones alone. -/
theorem markError (added : f.Adds top g) (new : f.size ≤ own) : f.Adds top (g.markError own) where
  kept := by
    intro id e found
    have below := lt_size_of_get? found
    rw [g.get?_markError, added.kept found, Option.map_some, if_neg (by omega)]
  parent := by
    intro id e found above
    rw [g.get?_markError] at found
    obtain ⟨e', there, rfl⟩ := Option.map_eq_some_iff.1 found
    have parent := added.parent there above
    split <;> exact parent

/-- What is added comes after all that was there. -/
theorem exists_entries (added : f.Adds top g) : ∃ new, g.entries = f.entries ++ new := by
  have begins : f.entries <+: g.entries := by
    refine List.prefix_iff_getElem?.2 fun id below => ?_
    exact added.kept (List.getElem?_eq_getElem below)
  obtain ⟨new, same⟩ := begins
  exact ⟨new, same.symm⟩

end Adds

/-- A single report that is put under the top. -/
theorem adds_concat (f : ReportForest) (under : e.parent = top) :
    f.Adds top ⟨f.entries ++ [e]⟩ where
  kept := by
    intro id e' found
    rw [get?_concat, if_neg (Nat.ne_of_lt (lt_size_of_get? found))]
    exact found
  parent := by
    intro id e' found new
    rw [get?_concat] at found
    split at found
    · cases found
      exact Or.inl under
    · exact absurd (lt_size_of_get? found) (Nat.not_lt.2 new)

/-! ## The way up -/

/-- Each report is younger than its parent. -/
def Aged (f : ReportForest) : Prop := ∀ {id e p}, f.get? id = some e → e.parent = some p → p < id

theorem aged_empty : empty.Aged := by
  intro id e p found
  cases found

/-- Parents are older than their children, since new ones are put under the top, which has been
there, or under new ones that came before. -/
theorem Adds.aged (added : f.Adds top g) (aged : f.Aged) (there : ∀ p ∈ top, p < f.size) :
    g.Aged := by
  intro id e p found parent
  rcases Nat.lt_or_ge id f.size with old | new
  · exact aged (added.get?_of_lt found old) parent
  · rcases added.parent found new with under | ⟨q, same, -, less⟩
    · have below : p < f.size := there p (under ▸ parent)
      omega
    · rw [same] at parent
      cases parent
      exact less

/-- A mark does not change who is older. -/
theorem Aged.markError (aged : f.Aged) (marked : Nat) : (f.markError marked).Aged := by
  intro id e p found parent
  rw [f.get?_markError, Option.map_eq_some_iff] at found
  obtain ⟨e', there, rfl⟩ := found
  refine aged there ?_
  split at parent <;> exact parent

/-- The first report is the second one, or an ancestor of it. -/
def Above (f : ReportForest) (top id : Nat) : Prop :=
  Relation.ReflTransGen (fun child parent => f.parent? child = some parent) id top

theorem parent?_eq_some {p : Nat} :
    f.parent? id = some p ↔ ∃ e, f.get? id = some e ∧ e.parent = some p :=
  Option.bind_eq_some_iff

/-- What is above a report stays above it. -/
theorem Above.of_extends {top : Nat} (above : f.Above top id) (extend : f.Extends g) :
    g.Above top id := by
  refine Relation.ReflTransGen.mono (fun child parent link => ?_) _ _ above
  obtain ⟨e, found, under⟩ := parent?_eq_some.1 link
  obtain ⟨e', found', -, same, -⟩ := extend _ _ found
  exact parent?_eq_some.2 ⟨e', found', same.trans under⟩

/-- What is above is older. -/
theorem Above.le {top : Nat} (above : f.Above top id) (aged : f.Aged) : top ≤ id := by
  induction above with
  | refl => exact Nat.le_refl _
  | tail _ link ih =>
    obtain ⟨e, found, under⟩ := parent?_eq_some.1 link
    exact Nat.le_trans (Nat.le_of_lt (aged found under)) ih

/-- The reports under a parent are those that name it. -/
theorem mem_withParent {p : Option Nat} :
    id ∈ f.withParent p ↔ ∃ e, f.get? id = some e ∧ e.parent = p := by
  unfold withParent get?
  simp only [List.mem_map, List.mem_filter, beq_iff_eq, Prod.exists, exists_eq_right,
    List.mem_zipIdx_iff_getElem?]

/-- By induction on the levels, of which there are enough for the distance in age. -/
theorem mem_outlineWithin (aged : f.Aged) (below : id < f.size) (levels : Nat) :
    ∀ (depth : Nat) {top : Nat}, f.Above top id → id < top + levels →
      id ∈ (f.outlineWithin levels depth top).map (·.2) := by
  induction levels with
  | zero =>
    intro depth top above near
    have le := above.le aged
    omega
  | succ levels ih =>
    intro depth top above near
    have le := above.le aged
    rw [outlineWithin, if_pos (by omega), List.map_cons]
    -- the report is the top, or below one of its children
    rcases Relation.ReflTransGen.cases_tail above with rfl | ⟨child, upper, link⟩
    · exact List.mem_cons_self
    · obtain ⟨e, found, under⟩ := parent?_eq_some.1 link
      have younger := aged found under
      have inner := ih (depth + 1) upper (by omega)
      obtain ⟨place, mem, same⟩ := List.mem_map.1 inner
      refine List.mem_cons_of_mem _ (List.mem_map.2 ⟨place, ?_, same⟩)
      exact List.mem_flatMap.2 ⟨child, mem_withParent.2 ⟨e, found, under⟩, mem⟩

/-- The subtree of a report holds all the reports that it is above. -/
theorem Above.mem_subtree {top : Nat} (above : f.Above top id) (aged : f.Aged)
    (below : id < f.size) :
    id ∈ f.subtree top :=
  mem_outlineWithin aged below f.size 0 above (by omega)

/-- Reports behind that have other parents do not matter for the list. -/
theorem withParent_append {rest : List Entry} {p : Option Nat} (others : ∀ e ∈ rest, e.parent ≠ p) :
    (⟨f.entries ++ e :: rest⟩ : ReportForest).withParent p
      = f.withParent p ++ if e.parent = p then [f.size] else [] := by
  have none_left : (rest.zipIdx (f.size + 1)).filter (fun e => e.1.parent == p) = [] := by
    refine List.filter_eq_nil_iff.2 fun place mem => ?_
    simpa using others place.1 (List.fst_mem_of_mem_zipIdx mem)
  unfold withParent
  simp only [List.zipIdx_append, List.filter_append, List.map_append,
    Nat.zero_add, List.zipIdx_cons]
  rw [← size, List.filter_cons, none_left]
  by_cases under : e.parent = p <;> simp [under]

/-- Where all that is added is below the first addition, the old reports keep their children, and so
do the roots: only the first addition itself comes last under its parent. -/
theorem Adds.withParent (added : f.Adds top g) (own : ∃ e, g.get? f.size = some e ∧ e.parent = top)
    (below : ∀ {id e}, g.get? id = some e → f.size < id → ∃ p, e.parent = some p
      ∧ f.size ≤ p ∧ p < id)
    {p : Option Nat} (old : ∀ id ∈ p, id < f.size) :
    g.withParent p = f.withParent p ++ if top = p then [f.size] else [] := by
  obtain ⟨first, found, parent⟩ := own
  obtain ⟨new, entries⟩ := added.exists_entries
  have later (i : Nat) : g.get? (f.size + i) = new[i]? := by
    rw [get?, entries, size, List.getElem?_append_right (Nat.le_add_right _ _),
      Nat.add_sub_cancel_left]
  rw [← Nat.add_zero f.size, later 0] at found
  cases new with
  | nil => cases found
  | cons e rest =>
    obtain rfl : e = first := Option.some.inj found
    -- what comes later is under something new, which `p` is not
    have others : ∀ e' ∈ rest, e'.parent ≠ p := by
      intro e' mem same
      obtain ⟨i, there⟩ := List.mem_iff_getElem?.1 mem
      obtain ⟨q, under, recent, -⟩ := below ((later (i + 1)).trans there) (by omega)
      have earlier := old q (same ▸ under)
      omega
    have same : g = ⟨f.entries ++ e :: rest⟩ := congrArg ReportForest.mk entries
    rw [same, withParent_append others, parent]

end Conference.ReportForest
