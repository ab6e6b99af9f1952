import Conference.Proofs.TechnologyPlan
import Mathlib.Data.List.Sort
import Mathlib.Data.List.Lex
import Mathlib.Data.Prod.Lex
import Mathlib.Order.RelIso.Basic

/-!
# Technology plans are the choices

The sets of a plan are those that arise by choosing one technology from each group, each of them
once. They are sorted by their size, and those of one size by their technologies. The bound on their
number is never reached, so the plan is that without a bound. It is empty just if some group leaves
no choice.
-/

namespace Conference.TechnologySet

/-- The ranks of the technologies of a set, in the order in which it holds them. -/
def ranks (s : TechnologySet) : List Nat := s.toList.map rank

/-- Smaller sets come first, and of sets of one size the one with the first smaller rank. -/
def Ahead (s t : TechnologySet) : Prop := s.size < t.size ∨ s.size = t.size ∧ s.ranks < t.ranks

/-- The set arises by choosing one technology from each group. -/
def IsChoice (groups : List TechnologySet) (s : TechnologySet) : Prop :=
  ∃ choice : List Technology, List.Forall₂ (· ∈ ·) choice groups ∧ s = Selection.ofList choice

/-- Extends combinations by the choices from some groups, however many there are. -/
def combineAll (combinations : List TechnologySet) : List TechnologySet → List TechnologySet
  | [] => combinations
  | group :: groups =>
    combineAll (distinct (combinations.flatMap fun s => group.toList.map (s.insert ·))) groups

variable {groups : List TechnologySet} {s t : TechnologySet}

/-! ## The bound -/

/-- The combinations so far are extended by one group after the other. -/
theorem combine_eq_combineAll (groups : List TechnologySet) :
    ∀ combinations : List TechnologySet, combine combinations groups
      = combineAll combinations groups := by
  induction groups with
  | nil => exact fun _ => rfl
  | cons group groups ih =>
    intro combinations
    rw [combine, combineAll, ih, extend_eq]

/-! ## The choices -/

/-- Each step removes duplicates, so none are left at the end. -/
theorem nodup_combine (groups : List TechnologySet) :
    ∀ {combinations : List TechnologySet}, combinations.Nodup →
      (combine combinations groups).Nodup := by
  induction groups with
  | nil => exact id
  | cons group groups ih =>
    intro combinations _
    refine ih ?_
    rw [extend_eq]
    exact nodup_distinct _

/-- By induction on the groups: the technology that is chosen from the first one goes into the
combination. -/
theorem mem_combine (groups : List TechnologySet) :
    ∀ {combinations : List TechnologySet} {s : TechnologySet},
    s ∈ combine combinations groups ↔ ∃ t ∈ combinations, ∃ choice : List Technology,
      List.Forall₂ (· ∈ ·) choice groups ∧ ∀ a, a ∈ s ↔ a ∈ t ∨ a ∈ choice := by
  induction groups with
  | nil =>
    intro combinations s
    constructor
    · exact fun mem => ⟨s, mem, [], .nil, fun a => by simp⟩
    · rintro ⟨t, mem, choice, chosen, same⟩
      cases chosen
      obtain rfl : s = t := Selection.ext fun a => by simpa using same a
      exact mem
  | cons group groups ih =>
    intro combinations s
    rw [combine, ih]
    constructor
    · rintro ⟨_, extended, choice, chosen, same⟩
      obtain ⟨t, mem, technology, first, rfl⟩ := mem_extend.1 extended
      refine ⟨t, mem, technology :: choice, .cons first chosen, fun a => ?_⟩
      rw [same, Selection.mem_insert, List.mem_cons, or_assoc, or_left_comm]
    · rintro ⟨t, mem, choice, chosen, same⟩
      -- the technology chosen from the first group goes into the combination that the others extend
      cases chosen with
      | @cons technology _ choice _ first chosen =>
        refine ⟨t.insert technology, mem_extend.2 ⟨t, mem, technology, first, rfl⟩,
          choice, chosen, fun a => ?_⟩
        rw [same, Selection.mem_insert, List.mem_cons, or_assoc, or_left_comm]

/-- A combination is what one choice out of each group amounts to. -/
theorem mem_combinations : s ∈ combinations groups ↔ IsChoice groups s := by
  rw [combinations, (sorted_perm _).mem_iff, mem_combine]
  constructor
  · rintro ⟨t, mem, choice, chosen, same⟩
    obtain rfl := List.mem_singleton.1 mem
    refine ⟨choice, chosen, Selection.ext fun a => ?_⟩
    rw [same, Selection.mem_ofList, or_iff_right Selection.not_mem_empty]
  · rintro ⟨choice, chosen, rfl⟩
    refine ⟨.empty, List.mem_singleton_self _, choice, chosen, fun a => ?_⟩
    rw [Selection.mem_ofList, or_iff_right Selection.not_mem_empty]

/-- A choice can be made unless some group is empty. -/
theorem exists_choice_iff (groups : List TechnologySet) :
    (∃ choice : List Technology, List.Forall₂ (· ∈ ·) choice groups)
      ↔ ∀ group ∈ groups, ∃ a, a ∈ group := by
  induction groups with
  | nil => exact iff_of_true ⟨[], .nil⟩ (List.forall_mem_nil _)
  | cons group groups ih =>
    rw [List.forall_mem_cons, ← ih]
    constructor
    · rintro ⟨choice, chosen⟩
      cases chosen with
      | cons first rest => exact ⟨⟨_, first⟩, _, rest⟩
    · rintro ⟨⟨technology, first⟩, choice, rest⟩
      exact ⟨technology :: choice, .cons first rest⟩

/-- Without a choice there is no combination. -/
theorem combinations_eq_nil_iff : combinations groups = [] ↔ ∃ group ∈ groups, group = .empty := by
  -- there is no combination exactly if no choice can be made
  have none_iff : combinations groups = []
      ↔ ¬ ∃ choice : List Technology, List.Forall₂ (· ∈ ·) choice groups := by
    rw [List.eq_nil_iff_forall_not_mem, ← not_exists, not_iff_not]
    constructor
    · rintro ⟨s, mem⟩
      obtain ⟨choice, chosen, -⟩ := mem_combinations.1 mem
      exact ⟨choice, chosen⟩
    · rintro ⟨choice, chosen⟩
      exact ⟨_, mem_combinations.2 ⟨choice, chosen, rfl⟩⟩
  rw [none_iff, exists_choice_iff]
  push Not
  refine exists_congr fun group => and_congr_right fun _ => ⟨fun lacks => ?_, ?_⟩
  · exact Selection.ext fun a => iff_of_false (lacks a) Selection.not_mem_empty
  · rintro rfl a
    exact Selection.not_mem_empty

/-! ## The order -/

/-- No two technologies have the same rank. -/
theorem rank_injective : Function.Injective rank := by
  intro a b
  cases a <;> cases b <;> decide

/-- Lists of technologies are compared by their ranks, lexicographically. -/
theorem precedes_iff (as bs : List Technology) : precedes as bs ↔ as.map rank < bs.map rank := by
  induction as generalizing bs with
  | nil => cases bs <;> simp [precedes]
  | cons a as ih =>
    cases bs with
    | nil => simp [precedes]
    | cons b bs =>
      rw [precedes, List.map_cons, List.map_cons, List.cons_lt_cons_iff, ← ih]
      rcases Nat.lt_trichotomy (rank a) (rank b) with less | same | more
      · simp [less]
      · simp [same]
      · simp [more, Nat.not_lt_of_gt more, Nat.ne_of_gt more]

/-- The comparison decides the order of the statement. -/
theorem before_iff : before s t ↔ Ahead s t := by
  rw [before, Bool.or_eq_true, Bool.and_eq_true, decide_eq_true_eq, decide_eq_true_eq, precedes_iff]
  rfl

/-- What the sets are sorted by. -/
def key (s : TechnologySet) : Nat ×ₗ List Nat := toLex (s.size, s.ranks)

/-- This order is that of a key in a linear order, so that sorting by it may be read off mathlib. -/
theorem ahead_iff : Ahead s t ↔ key s < key t := by
  rw [Ahead, key, key, Prod.Lex.toLex_lt_toLex]

/-- Sets with the same key are the same, hence the order is strict on sets that differ. -/
theorem key_injective : Function.Injective key := by
  intro s t same
  have ranks : s.ranks = t.ranks := congrArg (fun k => (ofLex k).2) same
  exact Selection.eq_of_toList (List.map_injective_iff.2 rank_injective ranks)

/-- Sorting puts sets in the order of their keys. -/
theorem sorted_eq (sets : List TechnologySet) :
    sets.foldr insertSorted [] = sets.insertionSort (Order.Preimage key (· ≤ ·)) := by
  have same (s : TechnologySet) (sorted : List TechnologySet) :
      insertSorted s sorted = sorted.orderedInsert (Order.Preimage key (· ≤ ·)) s := by
    induction sorted with
    | nil => rfl
    | cons t sorted ih =>
      have turn : before t s ↔ ¬ (Order.Preimage key (· ≤ ·)) s t := by
        rw [before_iff, ahead_iff, Order.Preimage, not_le]
      rw [insertSorted, List.orderedInsert_cons, ih, if_congr turn rfl rfl, ite_not]
  exact congrArg (fun insert => sets.foldr insert []) (funext fun s => funext (same s))

/-- Insertion yields a strictly increasing list where no set comes twice. -/
theorem pairwise_sorted {sets : List TechnologySet} (nodup : sets.Nodup) :
    (sets.foldr insertSorted []).Pairwise Ahead := by
  have ordered : (sets.foldr insertSorted []).Pairwise (Order.Preimage key (· ≤ ·)) := by
    rw [sorted_eq]
    exact List.pairwise_insertionSort _ _
  have different : (sets.foldr insertSorted []).Nodup := (sorted_perm sets).nodup_iff.2 nodup
  refine (ordered.and different).imp ?_
  rintro s t ⟨le, ne⟩
  exact ahead_iff.2 (lt_of_le_of_ne le (key_injective.ne ne))

/-- The combinations of any groups are the sets that arise by choosing one technology from each
group, each of them once, sorted by their size and then by their technologies. The bound on the
number of combinations cuts off none of them, and there is none just if some group is empty. -/
theorem combinations_are_choices (groups : List TechnologySet) :
    (∀ s, s ∈ combinations groups ↔ IsChoice groups s)
    ∧ (combinations groups).Nodup
    ∧ (combinations groups).Pairwise Ahead
    ∧ combinations groups = (combineAll [.empty] groups).foldr insertSorted []
    ∧ (combinations groups = [] ↔ ∃ group ∈ groups, group = .empty) := by
  have nodup : (combine [.empty] groups).Nodup := nodup_combine groups (List.nodup_singleton _)
  refine ⟨fun s => mem_combinations, ?_, pairwise_sorted nodup, ?_, combinations_eq_nil_iff⟩
  · exact (sorted_perm _).nodup_iff.2 nodup
  · rw [combinations, combine_eq_combineAll]

/-- The group that speaks only SIP leaves it no choice, and the other one may choose the same. -/
example :
    combinations [.ofList [.h323, .sip], .ofList [.sip]]
      = [.ofList [.sip], .ofList [.h323, .sip]] := by
  decide

end Conference.TechnologySet
