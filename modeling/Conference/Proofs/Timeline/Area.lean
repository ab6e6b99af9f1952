import Conference.Proofs.Timeline.Load
import Mathlib.Algebra.BigOperators.Group.List.Basic
import Mathlib.Algebra.Ring.Int.Defs

/-!
# Segments keep the time that is spent

An item of positive length spends some of a query in it: the length of the part that its slot has in
common with the query. The segments of the query account for the same time, each with its length for
every such item among its members. So the time is the same summed up by items or by segments.

The length that a slot spends in an interval adds up over neighbouring intervals, hence over the
parts between cuts, and in a part without cuts it is all or nothing. That settles each item for
itself; the rest is an exchange of two sums.
-/

namespace Conference

variable {α β : Type}

/-- The length of the common part of two slots, zero if they have none. -/
def Slot.commonLength (a b : Slot) : Int := ((a.intersect? b).map Slot.duration).getD 0

/-- The length of the part of a slot between two instants. -/
def Slot.lengthBetween (s : Slot) (start stop : Int) : Int :=
  max 0 (min s.stop stop - max s.start start)

def Segment.map (f : α → β) (s : Segment α) : Segment β := ⟨s.slot, s.members.map f⟩

/-- The time that the members of positive length spend in a segment. -/
def Segment.area (s : Segment (Timeline.Entry α)) : Int :=
  (s.members.countP fun e => !e.slot.isPoint) * s.slot.duration

namespace Timeline

/-- The timeline with other items in the same slots. -/
def map (f : α → β) (t : Timeline α) : Timeline β := ⟨t.entries.map fun e => ⟨f e.item, e.slot⟩⟩

/-- The timeline whose items tell their slots. -/
def withSlots (t : Timeline α) : Timeline (Entry α) := ⟨t.entries.map fun e => ⟨e, e.slot⟩⟩

/-! ## Items that tell their slots -/

/-- Which items overlap a slot is seen from the slots alone, so it does not matter what the items
are. -/
theorem overlapping_map (t : Timeline α) (f : α → β) (slot : Slot) :
    (t.map f).overlapping slot = (t.overlapping slot).map f := by
  simp [overlapping, map, List.filter_map, Function.comp_def]

/-- A query is cut up by the slots, whatever the items are. -/
theorem segments_map (t : Timeline α) (f : α → β) (start stop : Int) :
    (t.map f).segments start stop = (t.segments start stop).map (Segment.map f) := by
  -- the cuts are ends of slots, which the mapping keeps
  have same : (t.map f).cuts (Slot.span start stop) = t.cuts (Slot.span start stop) := by
    apply cuts_congr
    intro c _ _
    simp [map]
  rw [segments_eq, segments_eq, same, List.map_map]
  apply List.map_congr_left
  intro slot _
  show (⟨slot, (t.map f).overlapping slot⟩ : Segment β) = ⟨slot, (t.overlapping slot).map f⟩
  rw [overlapping_map]

/-- Items that tell their slots are the items again once they forget them. -/
theorem map_item_withSlots (t : Timeline α) : t.withSlots.map Entry.item = t := by
  unfold map withSlots
  rw [List.map_map]
  exact congrArg Timeline.mk (List.map_id t.entries)

/-- The segments with entries for members. -/
theorem segments_withSlots (t : Timeline α) (query : Slot) :
    t.withSlots.segments query.start query.stop
      = (slotsBetween query.start query.stop (t.cuts query)).map
        fun part => ⟨part, t.entries.filter fun e => e.slot.overlaps part⟩ := by
  have same : t.withSlots.cuts query = t.cuts query := by
    apply cuts_congr
    intro c _ _
    simp [withSlots]
  have members (part : Slot) :
      t.withSlots.overlapping part = t.entries.filter fun e => e.slot.overlaps part := by
    simp [overlapping, withSlots, List.filter_map, Function.comp_def]
  rw [segments_eq, Slot.span_bounds, same]
  simp only [members]

/-! ## The time of one item -/

/-- In a query of positive length, what a slot has in common with it is what lies between its ends.
Two slots may have a point in common, which has no length. -/
theorem commonLength_eq {query : Slot} (proper : query.start < query.stop) (s : Slot) :
    s.commonLength query = s.lengthBetween query.start query.stop := by
  have order := s.ordered
  unfold Slot.commonLength Slot.lengthBetween
  cases common : s.intersect? query with
  | none =>
    -- slots without a common part are apart, so one ends before the other starts
    have apart : ¬ s.overlaps query := by
      rw [← Slot.intersect?_isSome, common]
      simp
    rw [Slot.overlaps_iff_bounds] at apart
    simp only [Option.map_none, Option.getD_none]
    omega
  | some c =>
    obtain ⟨meet, start, stop⟩ := Slot.bounds_of_intersect? common
    simp only [Option.map_some, Option.getD_some, Slot.duration]
    omega

/-- The length between two instants is that up to an instant in between and that from there on. -/
theorem lengthBetween_add (s : Slot) {a b c : Int} (ab : a ≤ b) (bc : b ≤ c) :
    s.lengthBetween a b + s.lengthBetween b c = s.lengthBetween a c := by
  have order := s.ordered
  unfold Slot.lengthBetween
  omega

/-- By induction on the cuts: the parts from the first to the last instant make up the whole. -/
theorem sum_lengthBetween (s : Slot) {last : Int} (cuts : List Int) :
    ∀ {first : Int}, Ascends first last cuts →
      ((slotsBetween first last cuts).map fun part => s.lengthBetween part.start part.stop).sum
        = s.lengthBetween first last := by
  induction cuts with
  | nil =>
    intro first ascends
    have lt : first < last := by
      have := List.pairwise_cons.1 ascends
      exact this.1 last (by simp)
    simp [slotsBetween, Slot.span_stop_of_lt lt]
  | cons c cs ih =>
    intro first ascends
    obtain ⟨lt, rest⟩ := ascends.tail
    have before : c < last := (List.pairwise_cons.1 rest).1 last (by simp)
    -- the first part ends at the cut where the others begin
    rw [slotsBetween, List.map_cons, List.sum_cons, ih rest, Slot.span_start,
      Slot.span_stop_of_lt lt]
    exact lengthBetween_add s (by omega) (by omega)

/-- In a part of a query an item of positive length spends all of it or nothing, and a point spends
no time at all. -/
theorem duration_of_part {t : Timeline α} {query part : Slot} (proper : query.start < query.stop)
    (mem : part ∈ slotsBetween query.start query.stop (t.cuts query)) {e : Entry α}
    (he : e ∈ t.entries) :
    (if !e.slot.isPoint && e.slot.overlaps part then part.duration else 0)
      = e.slot.lengthBetween part.start part.stop := by
  have order := e.slot.ordered
  obtain ⟨length, first, last, clear⟩ := clear_slotsBetween _ (t.ascends_cuts query proper) part mem
  unfold Slot.lengthBetween Slot.duration
  by_cases point : e.slot.isPoint
  · -- a point has no length between any two instants
    rw [Slot.isPoint_iff] at point
    simp only [Slot.isPoint, point, beq_self_eq_true, Bool.not_true, Bool.false_and,
      Bool.false_eq_true, if_false]
    omega
  · by_cases meet : e.slot.overlaps part
    · -- the item has no end inside the part, so it covers all of it
      have whole := covers_of_clear he point ⟨first, last⟩ clear meet length
      simp only [point, meet, Bool.not_false, Bool.and_self, if_true]
      omega
    · -- apart from the part, the item ends before it or starts after it
      simp only [meet, Bool.and_false, Bool.false_eq_true, if_false]
      rw [Slot.isPoint_iff] at point
      rw [Slot.overlaps_iff_bounds] at meet
      omega

/-! ## The time of all items -/

/-- By induction on the items: to weigh each part by the number of its items is to weigh each item
by its parts. -/
theorem sum_countP_mul (items : List (Entry α)) (parts : List Slot) (p : Entry α → Slot → Bool) :
    (parts.map fun part => (items.countP (p · part) : Int) * part.duration).sum
      = (items.map fun e => (parts.map fun part =>
        if p e part then part.duration else 0).sum).sum := by
  induction items with
  | nil => simp
  | cons e items ih =>
    -- the first item adds the length of the part to its weight, if it counts there
    have split (part : Slot) : ((e :: items).countP (p · part) : Int) * part.duration
        = (if p e part then part.duration else 0)
          + (items.countP (p · part) : Int) * part.duration := by
      rw [List.countP_cons]
      split <;> simp [Int.add_mul, Int.add_comm]
    rw [List.map_congr_left fun part _ => split part, List.sum_map_add, ih,
      List.map_cons, List.sum_cons]

/-- The time spent in the segments, summed up by segments or by items. Each step of the calculation
rewrites one of the two sums: the segments are the parts between cuts, the sums are exchanged, and
the parts of one item add up to what it has in common with the query. -/
theorem sum_area (t : Timeline α) {query : Slot} (proper : query.start < query.stop) :
    ((t.withSlots.segments query.start query.stop).map Segment.area).sum
      = (t.entries.map fun e => e.slot.commonLength query).sum := by
  -- the area of a part is its length, once for each item that overlaps it
  have area (part : Slot) : Segment.area ⟨part, t.entries.filter fun e => e.slot.overlaps part⟩
      = (t.entries.countP fun e => !e.slot.isPoint && e.slot.overlaps part : Int)
        * part.duration := by
    rw [Segment.area, List.countP_filter]
  calc ((t.withSlots.segments query.start query.stop).map Segment.area).sum
    _ = ((slotsBetween query.start query.stop (t.cuts query)).map fun part =>
          (t.entries.countP fun e => !e.slot.isPoint && e.slot.overlaps part : Int)
            * part.duration).sum := by
        rw [segments_withSlots, List.map_map]
        exact congrArg List.sum (List.map_congr_left fun part _ => area part)
    _ = (t.entries.map fun e =>
          ((slotsBetween query.start query.stop (t.cuts query)).map fun part =>
            if !e.slot.isPoint && e.slot.overlaps part then part.duration else 0).sum).sum :=
        sum_countP_mul t.entries _ fun e part => !e.slot.isPoint && e.slot.overlaps part
    _ = (t.entries.map fun e => e.slot.commonLength query).sum := by
        congr 1
        apply List.map_congr_left
        intro e he
        rw [List.map_congr_left fun part mem => duration_of_part proper mem he,
          sum_lengthBetween e.slot _ (t.ascends_cuts query proper), commonLength_eq proper]

/-- Without points every member counts. -/
theorem area_of_long {t : Timeline α} (long : ∀ e ∈ t.entries, ¬ e.slot.isPoint) {query : Slot}
    {s : Segment (Entry α)} (hs : s ∈ t.withSlots.segments query.start query.stop) :
    s.area = s.members.length * s.slot.duration := by
  rw [segments_withSlots, List.mem_map] at hs
  obtain ⟨part, -, rfl⟩ := hs
  -- none of the members is a point, so all of them are counted
  have all : (t.entries.filter fun e => e.slot.overlaps part).countP (fun e => !e.slot.isPoint)
      = (t.entries.filter fun e => e.slot.overlaps part).length := by
    apply List.countP_eq_length.2
    intro e he
    simpa using long e (List.mem_filter.1 he).1
  rw [Segment.area, all]

/-- The segments of a query are the same if the items tell their slots. Then the time that the items
of positive length spend in the segments is the time that all items spend in the query. If there are
no points, this is each segment's length for every member. -/
theorem segments_keep_area (t : Timeline α) {query : Slot} (proper : query.start < query.stop) :
    (t.withSlots.segments query.start query.stop).map (Segment.map Entry.item)
      = t.segments query.start query.stop
    ∧ ((t.withSlots.segments query.start query.stop).map Segment.area).sum
      = (t.entries.map fun e => e.slot.commonLength query).sum
    ∧ ((∀ e ∈ t.entries, ¬ e.slot.isPoint) →
      ((t.segments query.start query.stop).map fun s =>
        (s.members.length : Int) * s.slot.duration).sum
        = (t.entries.map fun e => e.slot.commonLength query).sum) := by
  have items : (t.withSlots.segments query.start query.stop).map (Segment.map Entry.item)
      = t.segments query.start query.stop := by
    rw [← segments_map, map_item_withSlots]
  refine ⟨items, t.sum_area proper, fun long => ?_⟩
  -- without points the area of a segment is its length for each member
  rw [← t.sum_area proper, ← items, List.map_map]
  congr 1
  apply List.map_congr_left
  intro s hs
  rw [area_of_long long hs]
  simp [Segment.map]

/-- Items that nest, touch and come twice, one that starts before the query and one that ends after
it, and a point. -/
theorem crowded_query_keeps_area :
    let t :=
      ((((((empty.add "before" 0 40).add "inside" 20 30).add "after" 35 100).add "around" 5 70).add
      "touching" 50 60).add "inside" 20 30).add "bell" 25 25
    let query := Slot.span 10 50
    query.start < query.stop
    ∧ (t.withSlots.segments 10 50).map (Segment.map Entry.item) = t.segments 10 50
    ∧ ((t.withSlots.segments 10 50).map Segment.area).sum = 105
    ∧ (t.entries.map fun e => e.slot.commonLength query).sum = 105
    ∧ (∀ e ∈ (t.without (· == "bell")).entries, ¬ e.slot.isPoint)
    ∧ (((t.without (· == "bell")).segments 10 50).map fun s =>
      (s.members.length : Int) * s.slot.duration).sum
      = ((t.without (· == "bell")).entries.map fun e => e.slot.commonLength query).sum := by
  intro t query
  have proper : query.start < query.stop := by decide
  have long : ∀ e ∈ (t.without (· == "bell")).entries, ¬ e.slot.isPoint := by decide
  obtain ⟨items, area, -⟩ := segments_keep_area t proper
  -- the bell is a point, and the third part holds for the items without it
  obtain ⟨-, -, sizes⟩ := segments_keep_area (t.without (· == "bell")) proper
  have spent : (t.entries.map fun e => e.slot.commonLength query).sum = 105 := by decide
  exact ⟨proper, items, area.trans spent, spent, long, sizes long⟩

end Timeline

end Conference
