import Conference.Proofs.Timeline.Load
import Mathlib.Algebra.GroupWithZero.Nat
import Mathlib.Order.Bounds.Defs

/-!
# Peaks are greatest loads

The peak of a query is the largest weight of a segment, the load of an instant is the weight of what
covers it. An item of positive length covers the whole of each segment that it belongs to, so if
there are no points, a segment weighs as much as is in use at its first instant, and the peak is the
greatest load of an instant of the query. A point belongs to a segment and covers one instant of it,
so two points may weigh in together although no instant is covered by both; then the peak is a bound
and no more. In a query that is itself a point there is just one instant, and the two agree.

Weights are numbers here. Added up in words of 64 bits they come to the same as long as each
segment's weight fits a word.
-/

namespace Conference

variable {α : Type}

/-! ## Weights in words -/

/-- The sum of two words of 64 bits, if it fits a word. -/
def addWords? (a b : UInt64) : Option UInt64 :=
  if a.toNat + b.toNat < 2 ^ 64 then some (a + b) else none

/-- The load of a segment, added up member by member in words. -/
def Segment.loadWord? (s : Segment α) (weight : α → UInt64) : Option UInt64 :=
  s.members.foldlM (fun sum m => addWords? sum (weight m)) 0

/-- The peak of a query in words. -/
def Timeline.peakWord? (t : Timeline α) (start stop : Int) (weight : α → UInt64) : Option UInt64 :=
  ((t.segments start stop).mapM (Segment.loadWord? · weight)).map fun loads =>
    loads.foldr (fun a b => if a ≤ b then b else a) 0

theorem addWords?_eq_some {a b : UInt64} (fits : a.toNat + b.toNat < 2 ^ 64) :
    ∃ c, addWords? a b = some c ∧ c.toNat = a.toNat + b.toNat := by
  refine ⟨a + b, if_pos fits, ?_⟩
  rw [UInt64.toNat_add]
  omega

/-- By induction on the members, for any sum so far: if the whole fits a word then so does each sum
on the way. -/
theorem exists_sum_of_fits (weight : α → UInt64) (members : List α) :
    ∀ sum : UInt64, sum.toNat + members.foldr (fun m n => (weight m).toNat + n) 0 < 2 ^ 64 →
      ∃ c, members.foldlM (fun sum m => addWords? sum (weight m)) sum = some c
        ∧ c.toNat = sum.toNat + members.foldr (fun m n => (weight m).toNat + n) 0 := by
  induction members with
  | nil =>
    intro sum _
    exact ⟨sum, rfl, rfl⟩
  | cons m members ih =>
    intro sum fits
    simp only [List.foldr_cons] at fits ⊢
    -- each addition stays below what the whole sum stays below
    obtain ⟨next, added, value⟩ := addWords?_eq_some (a := sum) (b := weight m) (by omega)
    obtain ⟨c, rest, total⟩ := ih next (by omega)
    refine ⟨c, ?_, by omega⟩
    rw [List.foldlM_cons, added]
    exact rest

theorem Segment.exists_loadWord {s : Segment α} {weight : α → UInt64}
    (fits : s.load (fun a => (weight a).toNat) < 2 ^ 64) :
    ∃ c, s.loadWord? weight = some c ∧ c.toNat = s.load fun a => (weight a).toNat := by
  have start : (0 : UInt64).toNat = 0 := rfl
  have sum := exists_sum_of_fits weight s.members 0
  rw [start, Nat.zero_add] at sum
  exact sum fits

namespace Timeline

/-- By induction on the segments: the largest word is the word of the largest load. -/
theorem exists_largest_word {weight : α → UInt64} (segments : List (Segment α))
    (fits : ∀ s ∈ segments, s.load (fun a => (weight a).toNat) < 2 ^ 64) :
    ∃ loads, segments.mapM (Segment.loadWord? · weight) = some loads
      ∧ (loads.foldr (fun a b => if a ≤ b then b else a) 0).toNat
        = largest (segments.map (·.load fun a => (weight a).toNat)) := by
  induction segments with
  | nil => exact ⟨[], rfl, rfl⟩
  | cons s segments ih =>
    obtain ⟨c, first, value⟩ := Segment.exists_loadWord (fits s List.mem_cons_self)
    obtain ⟨loads, others, rest⟩ := ih fun s' later => fits s' (List.mem_cons_of_mem s later)
    refine ⟨c :: loads, by simp [first, others], ?_⟩
    rw [List.map_cons, largest, List.foldr_cons, List.foldr_cons, ← largest, ← rest, ← value,
      apply_ite UInt64.toNat]
    simp only [UInt64.le_iff_toNat_le]

theorem exists_peakWord {t : Timeline α} {start stop : Int} {weight : α → UInt64}
    (fits : ∀ s ∈ t.segments start stop, s.load (fun a => (weight a).toNat) < 2 ^ 64) :
    ∃ p, t.peakWord? start stop weight = some p ∧ p.toNat = t.peak start stop fun a =>
      (weight a).toNat := by
  obtain ⟨loads, found, value⟩ := exists_largest_word (t.segments start stop) fits
  refine ⟨_, ?_, value⟩
  rw [peakWord?, found]
  rfl

/-! ## Loads of segments -/

/-- If the items that overlap a slot are those that cover an instant, their weight is the load
there. -/
theorem loadAt_eq_overlapping {t : Timeline α} (weight : α → Nat) {slot : Slot} {instant : Int}
    (same : ∀ e ∈ t.entries, e.slot.overlaps slot ↔ e.slot.Covers instant) :
    t.loadAt weight instant = (t.overlapping slot).foldr (fun m n => weight m + n) 0 := by
  unfold loadAt overlapping
  revert same
  induction t.entries with
  | nil => exact fun _ => rfl
  | cons e es ih =>
    intro same
    have rest := ih fun e' later => same e' (List.mem_cons_of_mem e later)
    have here := same e List.mem_cons_self
    rw [List.foldr_cons, rest, Entry.weightAt]
    -- an item weighs at the instant if and only if it is a member
    by_cases covers : e.slot.Covers instant
    · have meet := here.2 covers
      simp [covers, meet]
    · have apart : ¬ e.slot.overlaps slot := fun meet => covers (here.1 meet)
      simp [covers, apart]

/-- An item overlaps a part of the query just if it covers the start of it, unless the item is a
point and the query is none. -/
theorem overlaps_part_iff {t : Timeline α} {query slot : Slot}
    (part : slot ∈ slotsBetween query.start query.stop (t.cuts query)) {e : Entry α}
    (he : e ∈ t.entries) (long : ¬ e.slot.isPoint ∨ query.isPoint) :
    e.slot.overlaps slot ↔ e.slot.Covers slot.start := by
  have within := t.inside_slotsBetween part
  rw [Slot.contains_iff_bounds] at within
  constructor
  · intro meet
    by_cases proper : query.start < query.stop
    · have extended : ¬ e.slot.isPoint := by
        simp only [Slot.isPoint_iff] at long ⊢
        omega
      obtain ⟨length, -, -, clear⟩ := clear_slotsBetween _ (t.ascends_cuts query proper) slot part
      -- no item has an end inside the part, so this one covers all of it
      have whole := covers_of_clear he extended within.1 clear meet length
      rw [Slot.covers_iff]
      omega
    · -- the query is a point, and so is each part of it
      have bounds := Slot.overlaps_iff_bounds.1 meet
      have order := slot.ordered
      rw [Slot.covers_iff]
      omega
  · exact fun covers => Slot.overlaps_of_covers covers slot.covers_start

/-! ## Peaks -/

theorem largest_mem {ns : List Nat} (given : ns ≠ []) : largest ns ∈ ns := by
  induction ns with
  | nil => exact absurd rfl given
  | cons n ns ih =>
    rw [largest, List.foldr_cons, ← largest]
    cases ns with
    | nil =>
      rw [List.mem_singleton]
      show (if n ≤ 0 then 0 else n) = n
      split <;> omega
    | cons m ns =>
      split
      · exact List.mem_cons_of_mem n (ih (List.cons_ne_nil m ns))
      · exact List.mem_cons_self

theorem slotsBetween_ne_nil (first last : Int) (cuts : List Int) :
    slotsBetween first last cuts ≠ [] := by
  cases cuts <;> simp [slotsBetween]

/-- The peak is the weight of a part of the query. -/
theorem exists_part_of_peak (t : Timeline α) (query : Slot) (weight : α → Nat) :
    ∃ slot ∈ slotsBetween query.start query.stop (t.cuts query),
      (⟨slot, t.overlapping slot⟩ : Segment α).load weight
        = t.peak query.start query.stop weight := by
  rw [peak_eq, ← List.mem_map]
  apply largest_mem
  simp [slotsBetween_ne_nil]

/-- The load at an instant of a query does not exceed the peak. Without points, or if the query is a
point, the peak is the greatest of these loads. In words of 64 bits the peak is the same if each
segment's weight fits a word. -/
theorem peak_is_greatest_load (t : Timeline α) (query : Slot) (weight : α → Nat) :
    (∀ instant, query.Covers instant →
      t.loadAt weight instant ≤ t.peak query.start query.stop weight)
    ∧ ((∀ e ∈ t.entries, ¬ e.slot.isPoint) ∨ query.isPoint →
      IsGreatest {load | ∃ instant, query.Covers instant ∧ t.loadAt weight instant = load}
        (t.peak query.start query.stop weight))
    ∧ ∀ words : α → UInt64,
      (∀ s ∈ t.segments query.start query.stop, s.load (fun a => (words a).toNat) < 2 ^ 64) →
      ∃ p, t.peakWord? query.start query.stop words = some p
        ∧ p.toNat = t.peak query.start query.stop fun a => (words a).toNat := by
  have bound (instant : Int) (covers : query.Covers instant) : t.loadAt weight instant
      ≤ t.peak query.start query.stop weight := t.loadAt_le_peak weight covers
  refine ⟨bound, fun long => ⟨?attained, ?greatest⟩, fun words fits => exists_peakWord fits⟩
  case attained =>
    -- the greatest segment has its load at its start already
    obtain ⟨slot, part, load⟩ := t.exists_part_of_peak query weight
    refine ⟨slot.start, (t.inside_slotsBetween part).2, ?_⟩
    rw [← load]
    apply loadAt_eq_overlapping
    intro e he
    exact overlaps_part_iff part he (long.imp_left fun none_point => none_point e he)
  case greatest =>
    rintro load ⟨instant, covers, rfl⟩
    exact bound instant covers

/-- Three items, of which the first and the last touch: the most that is in use at an instant are
the first two, or the last two, and never all of them. -/
theorem touching_items_peak :
    let t : Timeline UInt64 := ((empty.add 3 0 10).add 2 5 15).add 4 10 20
    let query : Slot := Slot.span 0 20
    (∀ e ∈ t.entries, ¬ e.slot.isPoint)
    ∧ query.Covers 12 ∧ t.loadAt UInt64.toNat 12 ≤ 6
    ∧ IsGreatest {load | ∃ instant, query.Covers instant ∧ t.loadAt UInt64.toNat instant = load} 6
    ∧ (∀ s ∈ t.segments 0 20, s.load UInt64.toNat < 2 ^ 64)
    ∧ ∃ p, t.peakWord? 0 20 id = some p ∧ p.toNat = 6 := by
  intro t query
  have long : ∀ e ∈ t.entries, ¬ e.slot.isPoint := by decide
  have covers : query.Covers 12 := by decide
  have fits : ∀ s ∈ t.segments 0 20, s.load UInt64.toNat < 2 ^ 64 := by decide
  -- at 12 the second and the third item overlap
  have peak : t.peak query.start query.stop UInt64.toNat = 6 := by decide
  obtain ⟨bound, greatest, words⟩ := peak_is_greatest_load t query UInt64.toNat
  have most := greatest (.inl long)
  have least := bound 12 covers
  have word := words id fits
  simp only [id_eq, peak] at most least word
  exact ⟨long, covers, least, most, fits, word⟩

/-- Two points weigh in together though they are apart. -/
example : let t : Timeline Nat := (empty.add 1 3 3).add 1 7 7
    t.peak 0 10 id = 2 ∧ t.loadAt id 3 = 1 ∧ t.loadAt id 7 = 1 := by decide

end Timeline

end Conference
