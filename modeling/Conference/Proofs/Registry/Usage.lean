import Conference.Proofs.Registry.Snapshot
import Conference.Proofs.Timeline.Load

/-!
# Units in use

How much of a resource is in use at an instant can be read off from the unclipped allocations. The
timeline that a registry sweeps, which joins a clipped snapshot with the allocations of a ledger,
has the same load within the working interval, and hides none of the values that are handed out
there.
-/

namespace Conference

namespace Allocation

/-- The units of one dimension of a resource that an allocation takes up at an instant. -/
def unitsAt (resource : ResourceId) (dimension : Dimension) (instant : Int)
    (a : Allocation) : Nat :=
  if a.resource = resource ∧ a.usage.dimension = dimension ∧ a.slot.Covers instant then
    a.usage.units
  else 0

/-- The units that several allocations take up together. -/
def heldAt (resource : ResourceId) (dimension : Dimension) (instant : Int)
    (as : List Allocation) : Nat :=
  as.foldr (fun a n => a.unitsAt resource dimension instant + n) 0

variable (resource : ResourceId) (dimension : Dimension) (instant : Int)

theorem heldAt_cons (a : Allocation) (as : List Allocation) :
    heldAt resource dimension instant (a :: as)
      = a.unitsAt resource dimension instant + heldAt resource dimension instant as := rfl

/-- What two lists of records hold adds up. -/
theorem heldAt_append (as bs : List Allocation) :
    heldAt resource dimension instant (as ++ bs)
      = heldAt resource dimension instant as + heldAt resource dimension instant bs := by
  induction as with
  | nil => exact (Nat.zero_add _).symm
  | cons a as ih => rw [List.cons_append, heldAt_cons, heldAt_cons, ih, Nat.add_assoc]

theorem heldAt_singleton (a : Allocation) :
    heldAt resource dimension instant [a] = a.unitsAt resource dimension instant := rfl

end Allocation

namespace Registry

open Allocation

/-! ## What a snapshot holds -/

/-- The part of an allocation within an interval, as an item of a timeline. -/
def clip? (interval : Slot) (a : Allocation) : Option (Timeline.Entry Allocation) :=
  (a.slot.intersect? interval).map fun slot => ⟨{ a with slot := slot }, slot⟩

/-- A record is filed under the part of its slot that lies in the interval, if there is such a
part. -/
theorem entries_addClipped (interval : Slot) (t : Timeline Allocation) (a : Allocation) :
    (addClipped interval t a).entries = t.entries ++ (clip? interval a).toList := by
  unfold addClipped clip?
  cases a.slot.intersect? interval with
  | none => simp
  | some slot =>
    have bounds : Slot.ofBounds? slot.start slot.stop = some slot :=
      Slot.ofBounds?_eq_some.2 ⟨rfl, rfl⟩
    simp only [Timeline.add, bounds]
    rfl

/-- By induction on the records. -/
theorem entries_foldl_addClipped (interval : Slot) (as : List Allocation) :
    ∀ t : Timeline Allocation,
      (as.foldl (addClipped interval) t).entries = t.entries ++ as.filterMap (clip? interval) := by
  induction as with
  | nil => intro t; simp
  | cons a as ih =>
    intro t
    rw [List.foldl_cons, ih, entries_addClipped, List.append_assoc]
    cases h : clip? interval a <;> simp [h]

/-- A snapshot holds the records of the resource, clipped, in the order of the inventory. -/
theorem entries_readSnapshot (inv : Inventory) (id : ResourceId) (interval : Slot) :
    (readSnapshot inv id interval).allocations.entries
      = (inv.allocationsWithin id interval).filterMap (clip? interval) := by
  rw [readSnapshot, entries_foldl_addClipped]
  rfl

/-! ## The load is that of the unclipped allocations -/

section Load

variable {interval : Slot} {id : ResourceId} {dimension : Dimension} {instant : Int}

/-- Clipping to the interval keeps which of its instants are covered. -/
theorem exists_clip? (within : interval.Covers instant) {a : Allocation}
    (meet : a.slot.overlaps interval) :
    ∃ slot, clip? interval a = some ⟨{ a with slot := slot }, slot⟩
      ∧ (slot.Covers instant ↔ a.slot.Covers instant) := by
  obtain ⟨slot, hs⟩ := Option.isSome_iff_exists.1 (Slot.intersect?_isSome.2 meet)
  refine ⟨slot, by rw [clip?, hs]; rfl, ?_⟩
  rw [Slot.covers_intersect? hs instant]
  exact and_iff_left within

/-- A record that is not read for the interval holds nothing at an instant in it. -/
theorem unitsAt_of_not_within (within : interval.Covers instant) {a : Allocation}
    (h : ¬ (a.resource == id && a.slot.overlaps interval) = true) :
    a.unitsAt id dimension instant = 0 := by
  refine if_neg fun taken => h ?_
  obtain ⟨rfl, -, covers⟩ := taken
  rw [beq_self_eq_true, Bool.true_and]
  exact Slot.overlaps_of_covers covers within

/-- What the clipped records weigh at an instant of the interval is what the records hold there. -/
theorem foldr_committed (within : interval.Covers instant) (as : List Allocation) :
    (((as.filter (fun a => a.resource == id && a.slot.overlaps interval)).filterMap
        (clip? interval)).filter (·.item.usage.dimension == dimension)).foldr
        (fun e n => e.weightAt (·.usage.units) instant + n) 0
      = heldAt id dimension instant as := by
  induction as with
  | nil => rfl
  | cons a as ih =>
    rw [heldAt_cons, List.filter_cons]
    by_cases h : (a.resource == id && a.slot.overlaps interval) = true
    · -- the allocation is read, and its clipped slot covers the instant iff its own does
      have named : a.resource = id := by
        rw [Bool.and_eq_true] at h
        exact eq_of_beq h.1
      have meet : a.slot.overlaps interval := by
        rw [Bool.and_eq_true] at h
        exact h.2
      obtain ⟨slot, clipped, covers⟩ := exists_clip? within meet
      rw [if_pos h, List.filterMap_cons_some clipped, List.filter_cons]
      by_cases hd : a.usage.dimension = dimension
      · rw [if_pos (by simpa using hd), List.foldr_cons, ih]
        congr 1
        simp only [Timeline.Entry.weightAt, unitsAt, named, hd, covers, true_and]
      · rw [if_neg (by simpa using hd), ih, unitsAt, if_neg fun taken => hd taken.2.1, Nat.zero_add]
    · rw [if_neg h, ih, unitsAt_of_not_within within h, Nat.zero_add]

/-- The records in force are not clipped, and weigh what they hold at any instant. -/
theorem foldr_tentative (as : List Allocation) :
    ((((as.filter (·.resource == id)).filter (·.usage.dimension == dimension)).map
        fun a => (⟨a, a.slot⟩ : Timeline.Entry Allocation))).foldr
        (fun e n => e.weightAt (·.usage.units) instant + n) 0
      = heldAt id dimension instant as := by
  induction as with
  | nil => rfl
  | cons a as ih =>
    rw [heldAt_cons, List.filter_cons]
    -- an allocation counts if both filters let it pass, and holds nothing otherwise
    by_cases hr : a.resource = id
    · rw [if_pos (by simpa using hr), List.filter_cons]
      by_cases hd : a.usage.dimension = dimension
      · rw [if_pos (by simpa using hd), List.map_cons, List.foldr_cons, ih]
        congr 1
        simp only [Timeline.Entry.weightAt, unitsAt, hr, hd, true_and]
      · rw [if_neg (by simpa using hd), ih, unitsAt, if_neg fun taken => hd taken.2.1, Nat.zero_add]
    · rw [if_neg (by simpa using hr), ih, unitsAt, if_neg fun taken => hr taken.1, Nat.zero_add]

/-- Within the interval, the swept timeline has the load of the committed and tentative
allocations. -/
theorem loadAt_usageOf (within : interval.Covers instant) (inv : Inventory) (l : Ledger) :
    (usageOf (readSnapshot inv id interval) id dimension l).loadAt (·.usage.units) instant
      = heldAt id dimension instant (inv.allocations ++ l.applied) := by
  have add_foldr (es : List (Timeline.Entry Allocation)) (n : Nat) :
      es.foldr (fun e n => e.weightAt (·.usage.units) instant + n) n
        = es.foldr (fun e n => e.weightAt (·.usage.units) instant + n) 0 + n := by
    induction es with
    | nil => exact (Nat.zero_add n).symm
    | cons e es ih => rw [List.foldr_cons, ih, List.foldr_cons, Nat.add_assoc]
  rw [heldAt_append, Timeline.loadAt, usageOf, List.foldr_append, add_foldr, Ledger.appliedOn,
    foldr_tentative, entries_readSnapshot, Inventory.allocationsWithin, foldr_committed within]

end Load

/-! ## Values that are handed out -/

/-- The values of a provider that the swept timeline shows during a slot. -/
def valuesDuring (inv : Inventory) (id : ResourceId) (interval slot : Slot)
    (l : Ledger) : List String :=
  ((usageOf (readSnapshot inv id interval) id .values l).overlapping slot).filterMap
    (·.usage.value?)

variable {inv : Inventory} {interval slot : Slot} {instant : Int} {l : Ledger} {value : String}

/-- A value taken at an instant of the slot by a record in force is among those in use. -/
theorem mem_valuesDuring_of_applied {a : Allocation} (applied : a ∈ l.applied)
    (holds : a.usage = .value value) (covers : a.slot.Covers instant)
    (asked : slot.Covers instant) :
    value ∈ valuesDuring inv a.resource interval slot l := by
  refine List.mem_filterMap.2 ⟨a, ?_, by rw [holds]; rfl⟩
  refine List.mem_map.2 ⟨⟨a, a.slot⟩, List.mem_filter.2 ⟨?_, ?_⟩, rfl⟩
  · refine List.mem_append_right _ (List.mem_map.2 ⟨a, ?_, rfl⟩)
    simp [Ledger.appliedOn, applied, holds, Usage.dimension]
  · exact Slot.overlaps_of_covers covers asked

/-- A committed value is seen although its allocation is clipped. -/
theorem mem_valuesDuring_of_committed {a : Allocation} (committed : a ∈ inv.allocations)
    (holds : a.usage = .value value) (covers : a.slot.Covers instant) (asked : slot.Covers instant)
    (within : interval.Covers instant) :
    value ∈ valuesDuring inv a.resource interval slot l := by
  have meet := Slot.overlaps_of_covers covers within
  obtain ⟨part, clipped, same⟩ := exists_clip? within meet
  refine List.mem_filterMap.2 ⟨{ a with slot := part }, ?_, by simp [holds, Usage.value?]⟩
  refine List.mem_map.2 ⟨⟨{ a with slot := part }, part⟩, List.mem_filter.2 ⟨?_, ?_⟩, rfl⟩
  · refine List.mem_append_left _ (List.mem_filter.2 ⟨?_, by simp [holds, Usage.dimension]⟩)
    rw [entries_readSnapshot]
    refine List.mem_filterMap.2 ⟨a, List.mem_filter.2 ⟨committed, ?_⟩, clipped⟩
    rw [beq_self_eq_true, Bool.true_and]
    exact meet
  · exact Slot.overlaps_of_covers (same.2 covers) asked

/-- Whatever uses a resource exclusively counts. -/
theorem units_pos_of_exclusive (snapshot : Snapshot) (id : ResourceId) (l : Ledger) :
    ∀ e ∈ (usageOf snapshot id .exclusive l).entries, 0 < e.item.usage.units := by
  intro e mem
  have exclusive : e.item.usage.dimension = .exclusive := by
    rcases List.mem_append.1 mem with committed | tentative
    · exact eq_of_beq (List.mem_filter.1 committed).2
    · obtain ⟨a, listed, rfl⟩ := List.mem_map.1 tentative
      exact eq_of_beq (List.mem_filter.1 listed).2
  cases held : e.item.usage with
  | exclusive => exact Nat.one_pos
  | roomLicenses n => rw [held] at exclusive; cases exclusive
  | recordingLicenses n => rw [held] at exclusive; cases exclusive
  | value v => exact Nat.one_pos

end Registry

end Conference
