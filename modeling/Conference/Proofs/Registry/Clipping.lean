import Conference.Proofs.Registry.Usage
import Conference.Proofs.Sample

/-!
# Clipping

A snapshot holds the committed allocations clipped to the working interval. For a slot within the
interval that makes no difference: the sweep is cut at the same instants, and each part of the slot
overlaps the clipped allocation just when it overlaps the whole one. A point at the very end of the
interval lies within it too, but the interval does not cover its instant. There the clipping loses
whatever is committed.
-/

namespace Conference

namespace Timeline

/-- Among some allocations those of a resource in one dimension, with their whole slots. -/
def ofAllocations (as : List Allocation) (id : ResourceId) (dimension : Dimension) :
    Timeline Allocation :=
  ⟨(as.filter fun a => a.resource == id && a.usage.dimension == dimension).map fun a => ⟨a, a.slot⟩⟩

/-- Strictly inside an interval, a slot clipped to it starts and ends where it did before. -/
theorem mem_ends_intersect? {a interval part : Slot} (h : a.intersect? interval = some part)
    {c : Int} (after : interval.start < c) (before : c < interval.stop) :
    c ∈ ends part ↔ c ∈ ends a := by
  obtain ⟨meet, start, stop⟩ := Slot.bounds_of_intersect? h
  have order := a.ordered
  rw [Slot.overlaps_iff_bounds] at meet
  rw [mem_ends, mem_ends]
  omega

end Timeline

namespace Registry

variable {g : Registry} {inv : Inventory} {id : ResourceId} {interval slot : Slot} {l : Ledger}
  {dimension : Dimension}

/-- A committed allocation is read for an interval if it overlaps it, as its common part with it. -/
theorem mem_readSnapshot {e : Timeline.Entry Allocation} :
    e ∈ (readSnapshot inv id interval).allocations.entries ↔
      ∃ a ∈ inv.allocations, a.resource = id ∧ a.slot.intersect? interval = some e.slot
        ∧ e.item = { a with slot := e.slot } := by
  rw [entries_readSnapshot, List.mem_filterMap]
  constructor
  · rintro ⟨a, mem, clipped⟩
    obtain ⟨committed, tested⟩ := List.mem_filter.1 mem
    rw [Bool.and_eq_true] at tested
    -- what is read of an allocation is its part within the interval
    obtain ⟨part, common, rfl⟩ := Option.map_eq_some_iff.1 clipped
    exact ⟨a, committed, eq_of_beq tested.1, common, rfl⟩
  · rintro ⟨a, committed, named, common, item⟩
    refine ⟨a, List.mem_filter.2 ⟨committed, ?_⟩, ?_⟩
    · rw [Bool.and_eq_true, beq_iff_eq]
      exact ⟨named, (Slot.bounds_of_intersect? common).1⟩
    · obtain ⟨item', part⟩ := e
      rw [clip?, common, Option.map_some]
      simp only at item
      rw [item]

/-! ## The usages that a part of a slot meets -/

variable (id dimension) in
theorem committed_overlapping (within : interval.contains slot)
    (starts : interval.Covers slot.start) (as : List Allocation) :
    (((((as.filter fun a => a.resource == id && a.slot.overlaps interval).filterMap
      (clip? interval)).filter
        (·.item.usage.dimension == dimension)).filter (fun e =>
          e.slot.overlaps slot)).map (·.item.usage))
      = (((as.filter fun a => a.resource == id && a.usage.dimension == dimension).filter
        (fun a => a.slot.overlaps slot)).map (·.usage)) := by
  induction as with
  | nil => rfl
  | cons a as ih =>
    rw [List.filter_cons, List.filter_cons]
    by_cases named : a.resource == id
    · by_cases meet : a.slot.overlaps interval
      · obtain ⟨part, common⟩ := Option.isSome_iff_exists.1 (Slot.intersect?_isSome.2 meet)
        have clipped : clip? interval a = some ⟨{ a with slot := part }, part⟩ := by
          rw [clip?, common]
          rfl
        have seen := Slot.overlaps_intersect? common within starts
        rw [if_pos (by rw [named, meet]; rfl), List.filterMap_cons_some clipped, List.filter_cons]
        by_cases fits : a.usage.dimension == dimension
        · rw [if_pos fits, if_pos (by rw [named, fits]; rfl), List.filter_cons, List.filter_cons]
          simp only [seen]
          split
          · rw [List.map_cons, List.map_cons, ih]
          · exact ih
        · rw [if_neg fits, if_neg (by rw [named]; simpa using fits)]
          exact ih
      · -- an allocation that is not read does not overlap the slot either
        have apart : ¬ a.slot.overlaps slot :=
          fun h => meet (Slot.overlaps_of_contains within starts h)
        rw [if_neg (by simp [meet]), ih]
        split
        · rw [List.filter_cons, if_neg apart]
        · rfl
    · rw [if_neg (by simp [named]), if_neg (by simp [named])]
      exact ih

/-- A slot of which the interval covers the start meets the same usages, clipped or not. -/
theorem overlapping_usageOf (within : interval.contains slot)
    (starts : interval.Covers slot.start) :
    ((usageOf (readSnapshot inv id interval) id dimension l).overlapping slot).map (·.usage)
      = ((Timeline.ofAllocations (inv.allocations ++ l.applied) id dimension).overlapping slot).map
        (·.usage) := by
  have committed := committed_overlapping id dimension within starts inv.allocations
  unfold Timeline.overlapping usageOf Timeline.ofAllocations
  rw [entries_readSnapshot, Inventory.allocationsWithin]
  simp only [List.filter_append, List.map_append, List.map_map, List.filter_map, Ledger.appliedOn,
    List.filter_filter, Function.comp_def] at committed ⊢
  rw [committed]
  congr 3
  funext a
  rw [Bool.and_comm (a.usage.dimension == dimension)]

/-- A slot that covers nothing of the interval meets only tentative usages. -/
theorem overlapping_usageOf_of_apart (apart : ∀ t, slot.Covers t → ¬ interval.Covers t) :
    ((usageOf (readSnapshot inv id interval) id dimension l).overlapping slot).map (·.usage)
      = ((Timeline.ofAllocations l.applied id dimension).overlapping slot).map (·.usage) := by
  -- a clipped record meets nothing outside the interval
  have unseen : ((readSnapshot inv id interval).allocations.entries.filter
      (·.item.usage.dimension == dimension)).filter (fun e => e.slot.overlaps slot) = [] := by
    rw [List.filter_eq_nil_iff]
    intro e he meet
    obtain ⟨a, -, -, common, -⟩ := mem_readSnapshot.1 (List.mem_filter.1 he).1
    obtain ⟨t, covers, asked⟩ := Slot.overlaps_iff_covers.1 meet
    exact apart t asked ((Slot.covers_intersect? common t).1 covers).2
  unfold Timeline.overlapping usageOf Timeline.ofAllocations
  rw [List.filter_append, unseen, List.nil_append]
  simp only [List.map_map, List.filter_map, Ledger.appliedOn, List.filter_filter, Function.comp_def]
  congr 2
  funext a
  rw [Bool.and_comm (a.usage.dimension == dimension)]

/-! ## Cuts -/

/-- Strictly inside the interval, clipping does not move the instants at which allocations start or
end. -/
theorem ends_usageOf {c : Int} (after : interval.start < c) (before : c < interval.stop) :
    (∃ e ∈ (usageOf (readSnapshot inv id interval) id dimension l).entries,
      c ∈ Timeline.ends e.slot)
      ↔ ∃ e ∈ (Timeline.ofAllocations (inv.allocations ++ l.applied) id dimension).entries,
        c ∈ Timeline.ends e.slot := by
  unfold usageOf Timeline.ofAllocations
  simp only [List.mem_append, List.mem_map, List.mem_filter, Ledger.appliedOn,
    Bool.and_eq_true, beq_iff_eq]
  constructor
  · rintro ⟨e, ⟨read, fits⟩ | ⟨a, ⟨⟨applied, named⟩, fits⟩, rfl⟩, cut⟩
    · obtain ⟨a, committed, named, common, item⟩ := mem_readSnapshot.1 read
      rw [item] at fits
      refine ⟨⟨a, a.slot⟩, ⟨a, ⟨Or.inl committed, named, fits⟩, rfl⟩, ?_⟩
      exact (Timeline.mem_ends_intersect? common after before).1 cut
    · exact ⟨⟨a, a.slot⟩, ⟨a, ⟨Or.inr applied, named, fits⟩, rfl⟩, cut⟩
  · rintro ⟨e, ⟨a, ⟨committed | applied, named, fits⟩, rfl⟩, cut⟩
    · -- an allocation that starts or ends inside the interval is read
      have meet := Timeline.overlaps_of_mem_ends after before cut
      obtain ⟨part, common⟩ := Option.isSome_iff_exists.1 (Slot.intersect?_isSome.2 meet)
      refine ⟨⟨{ a with slot := part }, part⟩, Or.inl ⟨?_, fits⟩, ?_⟩
      · exact mem_readSnapshot.2 ⟨a, committed, named, common, rfl⟩
      · exact (Timeline.mem_ends_intersect? common after before).2 cut
    · exact ⟨⟨a, a.slot⟩, Or.inr ⟨a, ⟨⟨applied, named⟩, fits⟩, rfl⟩, cut⟩

/-! ## Peaks and values -/

/-- The allocations that count for a slot within the working interval of a ledger. At the very end
of the interval the committed ones do not. -/
def seen (inv : Inventory) (l : Ledger) (slot : Slot) : List Allocation :=
  (if l.workingInterval.Covers slot.start then inv.allocations else []) ++ l.applied

variable (inv id dimension) in
theorem overlapping_eq_seen {query : Slot} (within : l.workingInterval.contains query)
    (inside : query.contains slot) (starts : query.Covers slot.start) :
    ((usageOf (readSnapshot inv id l.workingInterval) id dimension l).overlapping slot).map
          (·.usage)
      = ((Timeline.ofAllocations (seen inv l query) id dimension).overlapping slot).map
          (·.usage) := by
  have order := slot.ordered
  unfold seen
  -- either the query starts in the interval, or it is the point at its end
  by_cases covered : l.workingInterval.Covers query.start
  · rw [if_pos covered]
    refine overlapping_usageOf ?_ (Slot.covers_of_contains within covered starts)
    rw [Slot.contains_iff_bounds] at within inside ⊢
    omega
  · rw [if_neg covered, List.nil_append]
    refine overlapping_usageOf_of_apart fun t asked => ?_
    exact Slot.not_covers_of_contains within covered (Slot.covers_of_contains inside starts asked)

theorem peak_usageOf (within : l.workingInterval.contains slot) :
    (usageOf (readSnapshot inv id l.workingInterval) id dimension l).peak slot.start
      slot.stop (·.usage.units)
      = (Timeline.ofAllocations (seen inv l slot) id dimension).peak slot.start slot.stop
        (·.usage.units) := by
  refine Timeline.peak_congr (fun c after before => ?_) fun part inside starts => ?_
  · -- a slot with instants strictly inside is no point, so its start is covered
    rw [Slot.contains_iff_bounds] at within
    have covered : l.workingInterval.Covers slot.start := by
      rw [Slot.covers_iff]
      omega
    rw [seen, if_pos covered]
    exact ends_usageOf (by omega) (by omega)
  · have usages := congrArg (List.map Usage.units)
      (overlapping_eq_seen inv id dimension within inside starts)
    rw [List.map_map, List.map_map] at usages
    exact usages

theorem mem_valuesDuring (within : l.workingInterval.contains slot) {value : String} :
    value ∈ valuesDuring inv id l.workingInterval slot l
      ↔ ∃ a ∈ seen inv l slot, a.resource = id ∧ a.usage = .value value ∧ a.slot.overlaps slot := by
  have itself : slot.contains slot := by
    rw [Slot.contains_iff_bounds]
    omega
  have usages := overlapping_eq_seen inv id .values within itself
    slot.covers_start
  have values := congrArg (List.filterMap Usage.value?) usages
  rw [List.filterMap_map, List.filterMap_map] at values
  unfold valuesDuring
  -- a usage stands for the value just if it is the usage of that value
  have held (u : Usage) : u.value? = some value ↔ u = .value value := by
    cases u <;> simp [Usage.value?]
  rw [show (fun a : Allocation => a.usage.value?) = Usage.value? ∘ fun a => a.usage from rfl,
    values, List.mem_filterMap]
  unfold Timeline.overlapping Timeline.ofAllocations
  simp only [List.mem_map, List.mem_filter, Bool.and_eq_true, beq_iff_eq, Function.comp_apply, held]
  constructor
  · rintro ⟨_, ⟨_, ⟨⟨a, ⟨mem, named, -⟩, rfl⟩, meet⟩, rfl⟩, holds⟩
    exact ⟨a, mem, named, holds, meet⟩
  · rintro ⟨a, mem, named, holds, meet⟩
    refine ⟨a, ⟨⟨a, a.slot⟩, ⟨⟨a, ⟨mem, named, ?_⟩, rfl⟩, meet⟩, rfl⟩, holds⟩
    rw [holds]
    rfl

/-- For each slot within the working interval, what is in use of a refreshed resource, and the
values handed out, are those of the whole allocations that count for the slot. -/
theorem usage_of_refreshed (inv : Inventory) (registered : g.contains id)
    (within : l.workingInterval.contains slot) (dimension : Dimension) :
    (g.refresh id l.workingInterval inv).2.used id slot dimension l
        = .ok ((Timeline.ofAllocations (seen inv l slot) id dimension).peak slot.start slot.stop
          (·.usage.units))
      ∧ ∃ values, (g.refresh id l.workingInterval inv).2.allocatedValues id slot l = .ok values
        ∧ ∀ value, value ∈ values
          ↔ ∃ a ∈ seen inv l slot, a.resource = id ∧ a.usage = .value value
          ∧ a.slot.overlaps slot := by
  -- the snapshot just refreshed is what the queries read
  have shown := snapshot_refresh registered l.workingInterval inv
  constructor
  · rw [used, shown, ← peak_usageOf within]
    rfl
  · refine ⟨valuesDuring inv id l.workingInterval slot l, ?_, fun value => mem_valuesDuring within⟩
    rw [allocatedValues, shown]
    rfl

/-- A meeting sees the number of the sample that is handed out, and the licenses in use. -/
theorem usage_of_refreshed_sample :
    let g := empty.load Sample.inventory
    let l := Ledger.empty "pass" ⟨0, 100, by decide⟩
    let id := Sample.device.id
    let slot : Slot := ⟨1, 5, by decide⟩
    let refreshed := (g.refresh id l.workingInterval Sample.inventory).2
    g.contains id ∧ l.workingInterval.contains slot
      ∧ refreshed.used id slot .roomLicenses l
        = .ok ((Timeline.ofAllocations (seen Sample.inventory l slot) id .roomLicenses).peak
            slot.start slot.stop (·.usage.units))
      ∧ ∃ values, refreshed.allocatedValues id slot l = .ok values
        ∧ ∀ value, value ∈ values
          ↔ ∃ a ∈ seen Sample.inventory l slot, a.resource = id ∧ a.usage = .value value
            ∧ a.slot.overlaps slot := by
  intro g l id slot refreshed
  have registered : g.contains id := by decide
  have within : l.workingInterval.contains slot := by decide
  exact ⟨registered, within, usage_of_refreshed Sample.inventory registered within .roomLicenses⟩

/-- A terminal that is committed beyond the end of the interval looks free at the end, which lies
within it. -/
theorem committed_lost_at_end :
    let inv := { Sample.inventory with
      allocations := [⟨⟨"c1"⟩, Sample.terminal.id, ⟨5, 15, by decide⟩, .exclusive⟩] }
    let g := empty.load inv
    let l := Ledger.empty "pass" ⟨0, 10, by decide⟩
    let id := Sample.terminal.id
    let slot := Slot.point 10
    g.contains id ∧ l.workingInterval.contains slot
      ∧ (g.refresh id l.workingInterval inv).2.used id slot .exclusive l = .ok 0
      ∧ (Timeline.ofAllocations (inv.allocations ++ l.applied) id .exclusive).peak
        slot.start slot.stop
        (·.usage.units) = 1 := by
  refine ⟨?_, ?_, ?_, ?_⟩
  · decide
  · decide
  · rfl
  · decide

end Registry

end Conference
