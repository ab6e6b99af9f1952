import Conference.Candidate
import Mathlib.Data.List.Nodup
import Mathlib.Data.List.Sort

/-!
# The ranking of candidates

Candidates are compared by how full they are, in floating-point numbers, of which some do not
compare. All that the ranking asks of these numbers is that those that come up are totally
preordered. Then the comparison is a total order on candidates with different places in the order of
registration, since the place breaks each tie. So a list of them can be sorted in one way only, and
it makes no difference how a sort goes about it, or in which order it is given them.
-/

namespace Conference.Candidate

/-- Numbers that tell how full candidates are, and how two numbers compare, if they do. -/
structure Gauge (α : Type) where
  fullness : Candidate → α
  compare? : α → α → Option Ordering
  /-- What is not a number does not take part in the order. -/
  IsNumber : α → Prop

namespace Gauge

variable {α : Type} {gauge : Gauge α} {a b c : Candidate}

/-- Two numbers compare, and the first one is not greater. -/
def atMost (gauge : Gauge α) (x y : α) : Bool := (gauge.compare? x y).any (·.isLE)

/-- The numbers are totally preordered, and each candidate of which no more is available than there
is has one. -/
structure Lawful (gauge : Gauge α) : Prop where
  isNumber : ∀ c : Candidate, c.available ≤ c.maximum → gauge.IsNumber (gauge.fullness c)
  total : ∀ x y, gauge.IsNumber x → gauge.IsNumber y →
    ∃ o, gauge.compare? x y = some o ∧ gauge.compare? y x = some o.swap
  trans : ∀ x y z, gauge.IsNumber x → gauge.IsNumber y → gauge.IsNumber z →
    gauge.atMost x y → gauge.atMost y z → gauge.atMost x z

/-- Candidates with one place are taken for the same. Of others the fuller one is less. Where
neither is, or where they do not compare, the one that was registered earlier is less. -/
def order (gauge : Gauge α) (a b : Candidate) : Ordering :=
  if a.index = b.index then .eq
  else match gauge.compare? (gauge.fullness b) (gauge.fullness a) with
    | some .eq | none => Ord.compare a.index b.index
    | some o => o

/-- The first candidate is at least as full as the second one. -/
def AtLeast (gauge : Gauge α) (a b : Candidate) : Prop :=
  gauge.atMost (gauge.fullness b) (gauge.fullness a)

/-- The first candidate comes before the second one: it is at least as full, and if the second one
is as full as that, the first one was registered earlier. -/
def Before (gauge : Gauge α) (a b : Candidate) : Prop :=
  gauge.AtLeast a b ∧ (gauge.AtLeast b a → a.index < b.index)

/-- Fullness in multiples of `2⁻⁵³`, all of which compare. -/
def doubles : Gauge Nat := ⟨Candidate.fullness, fun x y => some (Ord.compare x y), fun _ => True⟩

theorem atMost_doubles (x y : Nat) : doubles.atMost x y ↔ x ≤ y := Nat.isLE_compare

theorem lawful_doubles : doubles.Lawful where
  isNumber := fun _ _ => trivial
  total := fun x y _ _ => ⟨Ord.compare x y, rfl, congrArg some (Nat.compare_swap x y).symm⟩
  trans := by
    intro x y z _ _ _ first second
    rw [atMost_doubles] at *
    exact Nat.le_trans first second

theorem order_doubles : doubles.order = Candidate.compare := by
  funext a b
  unfold order Candidate.compare doubles
  split
  · rfl
  · rename_i apart
    rcases Nat.lt_trichotomy b.fullness a.fullness with less | same | more
    · simp [Nat.compare_eq_lt.2 less, less]
    · rcases Nat.lt_or_gt_of_ne apart with earlier | later
      · simp [same, earlier, Nat.compare_eq_lt.2 earlier]
      · simp [same, Nat.lt_asymm later, Nat.compare_eq_gt.2 later]
    · simp [Nat.compare_eq_gt.2 more, more, Nat.lt_asymm more]

/-- What the comparison of two candidates comes to. -/
theorem Lawful.order_cases (lawful : gauge.Lawful) (fits : a.available ≤ a.maximum)
    (fits' : b.available ≤ b.maximum) (apart : a.index ≠ b.index) :
    (gauge.AtLeast a b ∧ ¬ gauge.AtLeast b a ∧ gauge.order a b = .lt ∧ gauge.order b a = .gt)
    ∨ (gauge.AtLeast b a ∧ ¬ gauge.AtLeast a b ∧ gauge.order a b = .gt ∧ gauge.order b a = .lt)
    ∨ gauge.AtLeast a b ∧ gauge.AtLeast b a ∧ gauge.order a b = Ord.compare a.index b.index
      ∧ gauge.order b a = Ord.compare b.index a.index := by
  obtain ⟨o, ba, ab⟩ := lawful.total _ _ (lawful.isNumber b fits') (lawful.isNumber a fits)
  unfold AtLeast atMost order
  rw [if_neg apart, if_neg (Ne.symm apart), ab, ba]
  cases o with
  | lt => exact Or.inl ⟨rfl, nofun, rfl, rfl⟩
  | gt => exact Or.inr (Or.inl ⟨rfl, nofun, rfl, rfl⟩)
  | eq => exact Or.inr (Or.inr ⟨rfl, rfl, rfl, rfl⟩)

end Gauge

/-! ## What sorts a list -/

/-- The order is a total order on the candidates of a list. -/
structure IsTotalOn (order : Candidate → Candidate → Ordering) (cs : List Candidate) : Prop where
  swap : ∀ a ∈ cs, ∀ b ∈ cs, order b a = (order a b).swap
  trans : ∀ a ∈ cs, ∀ b ∈ cs, ∀ c ∈ cs, order a b ≠ .gt → order b c ≠ .gt → order a c ≠ .gt
  eq_iff : ∀ a ∈ cs, ∀ b ∈ cs, order a b = .eq ↔ a = b

/-- A way to sort, which need not be stable. It gives the candidates back, and where the order is a
total one, none of them comes after a greater one. -/
def Sorts (sort : (Candidate → Candidate → Ordering) → List Candidate → List Candidate) : Prop :=
  ∀ order cs, (sort order cs).Perm cs
    ∧ (IsTotalOn order cs → (sort order cs).Pairwise fun a b => order a b ≠ .gt)

variable {order : Candidate → Candidate → Ordering} {cs ds : List Candidate}

theorem IsTotalOn.of_subset (total : IsTotalOn order cs) (among : ds ⊆ cs) :
    IsTotalOn order ds where
  swap := fun a ha b hb => total.swap a (among ha) b (among hb)
  trans := fun a ha b hb c hc => total.trans a (among ha) b (among hb) c (among hc)
  eq_iff := fun a ha b hb => total.eq_iff a (among ha) b (among hb)

/-- Where the order is a total one, there is one way in which a list can be sorted. -/
theorem IsTotalOn.eq_of_perm (total : IsTotalOn order cs) (perm : cs.Perm ds)
    (sorted : cs.Pairwise fun a b => order a b ≠ .gt)
    (sorted' : ds.Pairwise fun a b => order a b ≠ .gt) : cs = ds := by
  refine List.Perm.eq_of_pairwise (fun a b ha hb ab ba => ?_) sorted sorted' perm
  have hb' : b ∈ cs := perm.mem_iff.2 hb
  rw [total.swap a ha b hb'] at ba
  refine (total.eq_iff a ha b hb').1 ?_
  cases same : order a b with
  | lt => exact absurd (congrArg Ordering.swap same) ba
  | eq => rfl
  | gt => exact absurd same ab

/-- The sort by insertion that ranks candidates, by any order. -/
def rankBy (order : Candidate → Candidate → Ordering) (cs : List Candidate) : List Candidate :=
  cs.insertionSort fun a b => order b a ≠ .lt

theorem rank_eq_rankBy (cs : List Candidate) : rank cs = rankBy Candidate.compare cs := by
  have same (c : Candidate) (ds : List Candidate) :
      insert c ds = ds.orderedInsert (fun a b => Candidate.compare b a ≠ .lt) c := by
    induction ds with
    | nil => rfl
    | cons d ds ih => rw [insert, List.orderedInsert_cons, ih, ite_not]
  exact congrArg (fun insert => cs.foldr insert []) (funext fun c => funext (same c))

/-- Among the candidates of a list by themselves, the order is total everywhere. -/
theorem sorts_rankBy : Sorts rankBy := by
  refine fun order cs => ⟨List.perm_insertionSort _ _, fun total => ?_⟩
  let among (a b : {c // c ∈ cs}) : Prop := order b a ≠ .lt
  have among_iff (a b : {c // c ∈ cs}) : among a b ↔ order a b ≠ .gt := by
    show order b a ≠ .lt ↔ _
    rw [total.swap a a.2 b b.2, Ne, Ne, Ordering.swap_eq_lt]
  -- the order need only be total on the list itself, so the sort is taken over its elements
  have whole : rankBy order cs = (cs.attach.insertionSort among).map (·.1) := by
    rw [List.map_insertionSort among (fun a b => order b a ≠ .lt) (·.1) cs.attach fun _ _ _ _ =>
      Iff.rfl, List.attach_map_subtype_val]
    rfl
  have : Std.Total among := ⟨fun a b => by
    rw [among_iff, among_iff, total.swap a a.2 b b.2]
    cases order a b <;> simp⟩
  have : IsTrans _ among := ⟨fun a b c => by
    rw [among_iff, among_iff, among_iff]
    exact total.trans a a.2 b b.2 c c.2⟩
  rw [whole, List.pairwise_map]
  exact (List.pairwise_insertionSort among cs.attach).imp fun first => (among_iff _ _).1 first

/-- Two ways to sort give the same for the candidates of a list in any order. -/
theorem IsTotalOn.sort_eq (total : IsTotalOn order cs)
    {sort sort' : (Candidate → Candidate → Ordering) → List Candidate → List Candidate}
    (sorts : Sorts sort) (sorts' : Sorts sort') (perm : ds.Perm cs) :
    sort order ds = sort' order cs := by
  obtain ⟨whole, sorted⟩ := sorts order ds
  obtain ⟨whole', sorted'⟩ := sorts' order cs
  have among : sort order ds ⊆ cs := (whole.trans perm).subset
  exact (total.of_subset among).eq_of_perm ((whole.trans perm).trans whole'.symm)
    (sorted (total.of_subset perm.subset)) (sorted' total)

/-! ## The ranking -/

section Ranking

variable {α : Type} {gauge : Gauge α}

/-- The comparison does not put the first candidate behind the second one just if the first one is
as full, and the place decides where the second one is as full as the first one. -/
theorem Gauge.Lawful.order_ne_gt_iff (lawful : gauge.Lawful) {a b : Candidate}
    (fits : a.available ≤ a.maximum) (fits' : b.available ≤ b.maximum)
    (same : a.index = b.index → a = b) :
    gauge.order a b ≠ .gt ↔ gauge.AtLeast a b ∧ (gauge.AtLeast b a → a.index ≤ b.index) := by
  by_cases place : a.index = b.index
  · obtain rfl := same place
    -- a total comparison of equal numbers is its own swap
    have self : gauge.AtLeast a a := by
      obtain ⟨o, there, back⟩ := lawful.total _ _ (lawful.isNumber a fits) (lawful.isNumber a fits)
      have fixed : o = o.swap := Option.some.inj (there.symm.trans back)
      unfold AtLeast atMost
      rw [there]
      cases o with
      | eq => rfl
      | lt | gt => cases fixed
    rw [order, if_pos rfl]
    exact iff_of_true nofun ⟨self, fun _ => Nat.le_refl _⟩
  · rcases lawful.order_cases fits fits' place
      with ⟨fuller, less, first, -⟩ | ⟨-, less, first, -⟩ | ⟨fuller, even, first, -⟩
    · rw [first]
      exact iff_of_true nofun ⟨fuller, fun even => absurd even less⟩
    · rw [first]
      exact iff_of_false (fun never => never rfl) fun both => less both.1
    · rw [first, Nat.compare_ne_gt]
      exact ⟨fun earlier => ⟨fuller, fun _ => earlier⟩, fun both => both.2 even⟩

theorem Gauge.Lawful.isTotalOn (lawful : gauge.Lawful) (fits : ∀ c ∈ cs, c.available ≤ c.maximum)
    (distinct : (cs.map (·.index)).Nodup) : IsTotalOn gauge.order cs := by
  have same {a b : Candidate} (ha : a ∈ cs) (hb : b ∈ cs) (place : a.index = b.index) : a = b :=
    List.inj_on_of_nodup_map distinct ha hb place
  refine ⟨fun a ha b hb => ?_, fun a ha b hb c hc first second => ?_, fun a ha b hb => ?_⟩
  · by_cases place : a.index = b.index
    · rw [order, order, if_pos place, if_pos place.symm]
      rfl
    · rcases lawful.order_cases (fits a ha) (fits b hb) place with
        ⟨-, -, ab, ba⟩ | ⟨-, -, ab, ba⟩ | ⟨-, -, ab, ba⟩ <;> rw [ab, ba]
      · rfl
      · rfl
      · exact (Nat.compare_swap _ _).symm
  · rw [lawful.order_ne_gt_iff (fits _ ‹_›) (fits _ ‹_›) (same ‹_› ‹_›)] at first second ⊢
    have chain {x y z : Candidate} (hx : x ∈ cs) (hy : y ∈ cs) (hz : z ∈ cs)
        (xy : gauge.AtLeast x y)
        (yz : gauge.AtLeast y z) : gauge.AtLeast x z :=
      lawful.trans _ _ _ (lawful.isNumber z (fits z hz)) (lawful.isNumber y (fits y hy))
        (lawful.isNumber x (fits x hx)) yz xy
    refine ⟨chain ha hb hc first.1 second.1, fun back => ?_⟩
    -- all three are equally full
    have earlier := first.2 (chain hb hc ha second.1 back)
    have later := second.2 (chain hc ha hb back first.1)
    exact Nat.le_trans earlier later
  · constructor
    · intro even
      by_contra different
      have place : a.index ≠ b.index := fun place => different (same ha hb place)
      rcases lawful.order_cases (fits a ha) (fits b hb) place with
        ⟨-, -, ab, -⟩ | ⟨-, -, ab, -⟩ | ⟨-, -, ab, -⟩ <;> rw [ab] at even
      · cases even
      · cases even
      · exact place (Nat.compare_eq_eq.1 even)
    · rintro rfl
      exact if_pos rfl

/-- What is sorted by the comparison has each candidate before the later ones. -/
theorem Gauge.Lawful.pairwise_before (lawful : gauge.Lawful)
    (fits : ∀ c ∈ cs, c.available ≤ c.maximum) (distinct : (cs.map (·.index)).Nodup)
    (sorted : cs.Pairwise fun a b => gauge.order a b ≠ .gt) :
    cs.Pairwise gauge.Before := by
  have apart : cs.Pairwise fun a b => a.index ≠ b.index := List.pairwise_map.1 distinct
  refine (sorted.and apart).imp_of_mem ?_
  rintro a b ha hb ⟨first, place⟩
  rw [lawful.order_ne_gt_iff (fits a ha) (fits b hb) fun same => absurd same place] at first
  exact ⟨first.1, fun even => Nat.lt_of_le_of_ne (first.2 even) place⟩

/-- Where no candidate has more available than there is and no two have the same place in the order
of registration, the comparison is a total order, in which only a candidate itself is equal to it.
Any way to sort gives the candidates back with each one at least as full as all later ones, and
those that are equally full in the order of registration. It gives the same for the candidates in
any other order, and for those that are sorted already. This is what ranking gives, too. -/
theorem ranking_is_total (lawful : gauge.Lawful)
    {sort : (Candidate → Candidate → Ordering) → List Candidate → List Candidate}
    (sorts : Sorts sort) (fits : ∀ c ∈ cs, c.available ≤ c.maximum)
    (distinct : (cs.map (·.index)).Nodup) :
    IsTotalOn gauge.order cs
    ∧ (sort gauge.order cs).Perm cs
    ∧ (sort gauge.order cs).Pairwise gauge.Before
    ∧ (∀ ds, ds.Perm cs → sort gauge.order ds = sort gauge.order cs)
    ∧ sort gauge.order (sort gauge.order cs) = sort gauge.order cs
    ∧ Gauge.doubles.order = Candidate.compare ∧ sort Candidate.compare cs = rank cs := by
  have total := lawful.isTotalOn fits distinct
  obtain ⟨perm, sorted⟩ := sorts gauge.order cs
  have unique (ds : List Candidate) (same : ds.Perm cs) : sort gauge.order ds
      = sort gauge.order cs :=
    total.sort_eq sorts sorts same
  -- sorting permutes, so the bounds and the indexes are the same
  have fits' : ∀ c ∈ sort gauge.order cs, c.available ≤ c.maximum :=
    fun c mem => fits c (perm.subset mem)
  have distinct' : ((sort gauge.order cs).map (·.index)).Nodup := (perm.map _).nodup_iff.2 distinct
  refine ⟨total, perm, lawful.pairwise_before fits' distinct' (sorted total), unique, unique _ perm,
    Gauge.order_doubles, ?_⟩
  rw [rank_eq_rankBy, ← Gauge.order_doubles]
  exact (Gauge.lawful_doubles.isTotalOn fits distinct).sort_eq sorts sorts_rankBy (.refl cs)

/-- Three resources of which half is in use, and one of which more is. -/
def halls : List Candidate :=
  [⟨⟨"b"⟩, 1, 10, 5⟩, ⟨⟨"a"⟩, 0, 2, 1⟩, ⟨⟨"c"⟩, 2, 4, 2⟩, ⟨⟨"d"⟩, 3, 4, 1⟩]

/-- The fullest comes first, and the others as they were registered. -/
theorem halls_are_ranked : (∀ c ∈ halls, c.available ≤ c.maximum) ∧ (halls.map (·.index)).Nodup
    ∧ rank halls = [⟨⟨"d"⟩, 3, 4, 1⟩, ⟨⟨"a"⟩, 0, 2, 1⟩, ⟨⟨"b"⟩, 1, 10, 5⟩, ⟨⟨"c"⟩, 2, 4, 2⟩]
    ∧ rank halls.reverse = rank halls ∧ rank (rank halls) = rank halls := by
  have fits : ∀ c ∈ halls, c.available ≤ c.maximum := by decide
  have distinct : (halls.map (·.index)).Nodup := by decide
  obtain ⟨-, -, -, unique, again, same, -⟩ :=
    ranking_is_total Gauge.lawful_doubles sorts_rankBy fits distinct
  rw [same] at unique again
  refine ⟨fits, distinct, by decide +kernel, ?_, ?_⟩
  · rw [rank_eq_rankBy, rank_eq_rankBy]
    exact unique _ halls.reverse_perm
  · rw [rank_eq_rankBy, rank_eq_rankBy]
    exact again

end Ranking

end Conference.Candidate
