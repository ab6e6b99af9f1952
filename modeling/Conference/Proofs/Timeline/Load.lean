import Conference.Proofs.Timeline.Partition
import Mathlib.Data.List.Sort

/-!
# The load of a timeline

The load at an instant is the summed weight of the items that cover it. A query is cut into segments
without gaps, so each of its instants lies in one of them, and the items that cover the instant are
members of that segment. Hence the peak of a query bounds the load at each of its instants.
-/

namespace Conference.Timeline

variable {α : Type}

/-- What an item adds to the load at an instant. -/
def Entry.weightAt (weight : α → Nat) (instant : Int) (e : Entry α) : Nat :=
  if e.slot.Covers instant then weight e.item else 0

/-- The summed weight of the items that cover an instant. -/
def loadAt (t : Timeline α) (weight : α → Nat) (instant : Int) : Nat :=
  t.entries.foldr (fun e n => e.weightAt weight instant + n) 0

/-! ## Segments leave no gap -/

theorem exists_slotsBetween_covers {last instant : Int} (before : instant < last)
    (cuts : List Int) :
    ∀ {first : Int}, first ≤ instant →
      ∃ slot ∈ slotsBetween first last cuts, slot.Covers instant := by
  induction cuts with
  | nil =>
    intro first after
    refine ⟨Slot.span first last, List.mem_singleton.2 rfl, ?_⟩
    rw [Slot.covers_iff, Slot.span_start, Slot.span_stop]
    split <;> omega
  | cons cut cuts ih =>
    intro first after
    -- before the first cut it is the first slot, and after it a later one
    by_cases early : instant < cut
    · refine ⟨Slot.span first cut, List.mem_cons_self, ?_⟩
      rw [Slot.covers_iff, Slot.span_start, Slot.span_stop]
      split <;> omega
    · obtain ⟨slot, mem, covers⟩ := ih (Int.not_lt.1 early)
      exact ⟨slot, List.mem_cons_of_mem _ mem, covers⟩

/-- Each instant of a query lies in one of its segments. -/
theorem exists_segment_covers (t : Timeline α) {query : Slot} {instant : Int}
    (h : query.Covers instant) :
    ∃ segment ∈ t.segments query.start query.stop,
      segment.slot.Covers instant ∧ segment.members = t.overlapping segment.slot := by
  have found : ∃ slot ∈ slotsBetween query.start query.stop (t.cuts query),
      slot.Covers instant := by
    have bounds := Slot.covers_iff.1 h
    -- a query that is a point has no cuts and is its own only segment
    rcases bounds.2 with proper | ⟨point, rfl⟩
    · exact exists_slotsBetween_covers proper _ bounds.1
    · rw [cuts_of_isPoint t (query.isPoint_iff.2 point), ← point]
      refine ⟨Slot.span query.start query.start, List.mem_singleton.2 rfl, ?_⟩
      simpa using Slot.covers_start (Slot.span query.start query.start)
  obtain ⟨slot, mem, covers⟩ := found
  refine ⟨⟨slot, t.overlapping slot⟩, ?_, covers, rfl⟩
  rw [segments_eq, Slot.span_bounds]
  exact List.mem_map.2 ⟨slot, mem, rfl⟩

/-! ## The peak bounds the load -/

/-- The peak is the largest load of a part between cuts. -/
theorem peak_eq (t : Timeline α) (query : Slot) (weight : α → Nat) :
    t.peak query.start query.stop weight
      = largest ((slotsBetween query.start query.stop (t.cuts query)).map
        fun slot => (⟨slot, t.overlapping slot⟩ : Segment α).load weight) := by
  rw [peak, segments_eq, Slot.span_bounds, List.map_map]
  rfl

/-- The items that overlap a slot weigh at least as much as those that cover an instant of it. -/
theorem loadAt_le_overlapping (t : Timeline α) (weight : α → Nat) {slot : Slot} {instant : Int}
    (h : slot.Covers instant) :
    t.loadAt weight instant ≤ (t.overlapping slot).foldr (fun m n => weight m + n) 0 := by
  unfold loadAt overlapping
  induction t.entries with
  | nil => exact Nat.le_refl 0
  | cons e es ih =>
    rw [List.foldr_cons, List.filter_cons]
    by_cases meet : e.slot.overlaps slot
    · have le : e.weightAt weight instant ≤ weight e.item := by
        unfold Entry.weightAt
        split <;> omega
      rw [if_pos meet, List.map_cons, List.foldr_cons]
      exact Nat.add_le_add le ih
    · -- an item that covers the instant would overlap the slot there
      have apart : ¬ e.slot.Covers instant := fun covers => meet (Slot.overlaps_of_covers covers h)
      rw [if_neg meet, Entry.weightAt, if_neg apart, Nat.zero_add]
      exact ih

/-- The load at an instant of a query does not exceed the peak of the query. -/
theorem loadAt_le_peak (t : Timeline α) (weight : α → Nat) {query : Slot} {instant : Int}
    (h : query.Covers instant) :
    t.loadAt weight instant ≤ t.peak query.start query.stop weight := by
  obtain ⟨segment, mem, covers, members⟩ := t.exists_segment_covers h
  have load : t.loadAt weight instant ≤ segment.load weight := by
    rw [Segment.load, members]
    exact t.loadAt_le_overlapping weight covers
  exact Nat.le_trans load (le_largest (List.mem_map_of_mem mem))

/-! ## What the peak depends on -/

section

variable {t u : Timeline α} {query : Slot}

/-- The parts of a query lie within it, and it covers their starts. -/
theorem inside_slotsBetween (t : Timeline α) {slot : Slot}
    (mem : slot ∈ slotsBetween query.start query.stop (t.cuts query)) :
    query.contains slot ∧ query.Covers slot.start := by
  by_cases proper : query.start < query.stop
  · obtain ⟨length, after, before, -⟩ := clear_slotsBetween _ (t.ascends_cuts query proper) slot mem
    rw [Slot.contains_iff_bounds, Slot.covers_iff]
    omega
  · have order := query.ordered
    have point : query.isPoint := query.isPoint_iff.2 (by omega)
    rw [cuts_of_isPoint t point, slotsBetween, List.mem_singleton, Slot.span_bounds] at mem
    rw [mem]
    refine ⟨?_, query.covers_start⟩
    rw [Slot.contains_iff_bounds]
    omega

theorem mem_ends {slot : Slot} {c : Int} :
    c ∈ ends slot ↔ slot.start < slot.stop ∧ (c = slot.start ∨ c = slot.stop) := by
  have order := slot.ordered
  unfold ends
  split
  · rename_i point
    rw [Slot.isPoint_iff] at point
    simp only [List.not_mem_nil, false_iff]
    omega
  · rename_i proper
    rw [Slot.isPoint_iff] at proper
    rw [List.mem_cons, List.mem_singleton]
    omega

/-- An item that starts or ends strictly inside an interval overlaps it. -/
theorem overlaps_of_mem_ends {a interval : Slot} {c : Int} (after : interval.start < c)
    (before : c < interval.stop) (h : c ∈ ends a) : a.overlaps interval := by
  rw [mem_ends] at h
  rw [Slot.overlaps_iff_bounds]
  omega

/-- The cuts depend on the instants at which items start or end inside the query. -/
theorem cuts_congr {β : Type} {t : Timeline α} {u : Timeline β}
    (ends_iff : ∀ c, query.start < c → c < query.stop →
      ((∃ e ∈ t.entries, c ∈ ends e.slot) ↔ ∃ e ∈ u.entries, c ∈ ends e.slot)) :
    t.cuts query = u.cuts query := by
  refine (t.pairwise_cuts query).eq_of_mem_iff (u.pairwise_cuts query) fun c => ?_
  rw [mem_cuts, mem_cuts]
  constructor
  · exact fun h => ⟨(ends_iff c h.2.1 h.2.2).1 h.1, h.2⟩
  · exact fun h => ⟨(ends_iff c h.2.1 h.2.2).2 h.1, h.2⟩

/-- The peak depends on the instants at which items start or end inside the query, and on the loads
of the parts between these. -/
theorem peak_congr {weight : α → Nat}
    (ends_iff : ∀ c, query.start < c → c < query.stop →
      ((∃ e ∈ t.entries, c ∈ ends e.slot) ↔ ∃ e ∈ u.entries, c ∈ ends e.slot))
    (loads : ∀ slot, query.contains slot → query.Covers slot.start →
      (t.overlapping slot).map weight = (u.overlapping slot).map weight) :
    t.peak query.start query.stop weight = u.peak query.start query.stop weight := by
  -- the same cuts make the same segments
  have same : t.cuts query = u.cuts query := cuts_congr ends_iff
  rw [peak_eq, peak_eq, same]
  congr 1
  refine List.map_congr_left fun slot mem => ?_
  obtain ⟨within, starts⟩ := u.inside_slotsBetween mem
  have load (v : Timeline α) : (⟨slot, v.overlapping slot⟩ : Segment α).load weight
      = ((v.overlapping slot).map weight).foldr (· + ·) 0 := by
    rw [List.foldr_map]
    rfl
  rw [load, load, loads slot within starts]

/-- What overlaps a slot shows by the slots of the entries. -/
theorem map_overlapping {β : Type} (t : Timeline α) (f : α → β) (slot : Slot) :
    (t.overlapping slot).map f
      = ((t.entries.map fun e => (f e.item, e.slot)).filter (·.2.overlaps slot)).map (·.1) := by
  rw [overlapping, List.filter_map, List.map_map, List.map_map]
  rfl

theorem overlapping_congr {β : Type} {f : α → β}
    (same : t.entries.map (fun e => (f e.item, e.slot)) = u.entries.map fun e => (f e.item, e.slot))
    (slot : Slot) : (t.overlapping slot).map f = (u.overlapping slot).map f := by
  rw [map_overlapping, map_overlapping, same]

/-- The peak depends on the weights and slots of the entries. -/
theorem peak_of_weights {weight : α → Nat}
    (same : t.entries.map (fun e => (weight e.item, e.slot)) = u.entries.map fun e =>
      (weight e.item, e.slot)) :
    t.peak query.start query.stop weight = u.peak query.start query.stop weight := by
  have by_slots (v : Timeline α) (c : Int) : (∃ e ∈ v.entries, c ∈ ends e.slot)
      ↔ ∃ p ∈ v.entries.map (fun e => (weight e.item, e.slot)), c ∈ ends p.2 := by
    simp
  refine peak_congr (fun c _ _ => ?_) fun slot _ _ => overlapping_congr same slot
  rw [by_slots, by_slots, same]

/-- Of the items, those that overlap the query are all that counts for its peak. -/
theorem peak_filter_overlaps (t : Timeline α) (query : Slot) (weight : α → Nat) :
    (⟨t.entries.filter fun e => e.slot.overlaps query⟩ : Timeline α).peak
      query.start query.stop weight
      = t.peak query.start query.stop weight := by
  refine peak_congr (fun c after before => ?_) fun slot within starts => ?_
  · constructor
    · rintro ⟨e, he, cut⟩
      exact ⟨e, (List.mem_filter.1 he).1, cut⟩
    · rintro ⟨e, he, cut⟩
      exact ⟨e, List.mem_filter.2 ⟨he, overlaps_of_mem_ends after before cut⟩, cut⟩
  · unfold overlapping
    rw [List.filter_filter]
    congr 2
    refine List.filter_congr fun e _ => ?_
    -- a part of the query meets nothing that the query does not meet
    cases meet : e.slot.overlaps slot with
    | false => rfl
    | true => rw [Slot.overlaps_of_contains within starts meet, Bool.and_true]

/-- The peak depends on the weights and slots of the entries that overlap the query. -/
theorem peak_of_overlapping_weights {weight : α → Nat}
    (same : (t.entries.map fun e => (weight e.item, e.slot)).filter (·.2.overlaps query)
      = (u.entries.map fun e => (weight e.item, e.slot)).filter (·.2.overlaps query)) :
    t.peak query.start query.stop weight = u.peak query.start query.stop weight := by
  rw [← peak_filter_overlaps t, ← peak_filter_overlaps u]
  refine peak_of_weights ?_
  rw [List.filter_map, List.filter_map] at same
  exact same

end

end Conference.Timeline
