import Conference.Proofs.Registry.Shown
import Conference.Proofs.Registry.Usage
import Conference.Proofs.Sample
import Mathlib.Data.List.Forall2

/-!
# Registries in use

A registry starts empty and is changed by one operation after the other, while the inventory behind
it stays as it is. Each operation leaves only snapshots that are views of the inventory for the
working interval: it drops all of them when the interval changes, adds resources without one, and
reads new ones for the interval that it has just moved to. So after any operations a snapshot holds
the allocations of its resource that overlap the working interval, clipped to it, and no others.
-/

namespace Conference

/-- The entry is the common part of the allocation with the interval. -/
structure Allocation.ClippedTo (interval : Slot) (a : Allocation)
    (e : Timeline.Entry Allocation) : Prop where
  common : a.slot.intersect? interval = some e.slot
  item : e.item = { a with slot := e.slot }
  inside : interval.contains e.slot

/-- The snapshot is for the interval, and holds what the inventory has for the resource there: one
clipped entry for each allocation that overlaps the interval, in the order of the inventory. -/
structure Snapshot.Views (s : Snapshot) (inv : Inventory) (id : ResourceId)
    (interval : Slot) : Prop where
  asked : s.interval = interval
  entries : List.Forall₂ (Allocation.ClippedTo interval) (inv.allocations.filter fun a =>
    a.resource == id && a.slot.overlaps interval) s.allocations.entries

namespace Registry

variable {g : Registry} {inv : Inventory} {id : ResourceId} {interval : Slot}

/-- What may be done to a registry. -/
inductive Operation where
  | load
  | add (resource : Resource)
  | remove (id : ResourceId)
  | setWorkingInterval (interval : Slot)
  | clearSnapshots
  | refresh (id : ResourceId) (interval : Slot)
  | ensure (id : ResourceId) (interval : Slot)

/-- The registry after an operation. -/
def change (inv : Inventory) (g : Registry) : Operation → Registry
  | .load => g.load inv
  | .add resource => (g.add resource).2
  | .remove id => (g.remove id).2
  | .setWorkingInterval interval => g.setWorkingInterval interval
  | .clearSnapshots => g.clearSnapshots
  | .refresh id interval => (g.refresh id interval inv).2
  | .ensure id interval => (g.ensure id interval inv).2

/-- The registry after some operations on an empty one. -/
def after (inv : Inventory) (ops : List Operation) : Registry := ops.foldl (change inv) empty

/-! ## One snapshot -/

/-- The clipped record is the record with the common part of slot and interval. -/
theorem clippedTo_of_clip? {a : Allocation} {e : Timeline.Entry Allocation}
    (clipped : clip? interval a = some e) :
    a.ClippedTo interval e := by
  obtain ⟨part, common, rfl⟩ := Option.map_eq_some_iff.1 clipped
  have bounds := Slot.bounds_of_intersect? common
  have meet := Slot.overlaps_iff_bounds.1 bounds.1
  have a_order := a.slot.ordered
  have order := interval.ordered
  have inside : interval.contains part := by
    rw [Slot.contains_iff_bounds]
    omega
  exact ⟨common, rfl, inside⟩

/-- By induction on the allocations that overlap the interval, none of which is lost when they are
clipped. -/
theorem forall₂_clip? {as : List Allocation} (meet : ∀ a ∈ as, a.slot.overlaps interval) :
    List.Forall₂ (Allocation.ClippedTo interval) as (as.filterMap (clip? interval)) := by
  induction as with
  | nil => exact .nil
  | cons a as ih =>
    have common : (clip? interval a).isSome := by
      rw [clip?, Option.isSome_map, Slot.intersect?_isSome]
      exact meet a List.mem_cons_self
    obtain ⟨e, clipped⟩ := Option.isSome_iff_exists.1 common
    rw [List.filterMap_cons_some clipped]
    exact .cons (clippedTo_of_clip? clipped) (ih fun b mem => meet b (List.mem_cons_of_mem _ mem))

/-- A snapshot that has just been read views the inventory. -/
theorem views_readSnapshot (inv : Inventory) (id : ResourceId) (interval : Slot) :
    (readSnapshot inv id interval).Views inv id interval where
  asked := rfl
  entries := by
    rw [entries_readSnapshot]
    apply forall₂_clip?
    intro a mem
    have tested := (List.mem_filter.1 mem).2
    rw [Bool.and_eq_true] at tested
    exact tested.2

/-! ## One operation -/

theorem reflects_empty (inv : Inventory) : empty.Reflects inv := nofun

/-- A resource that is added has no snapshot yet. -/
theorem reflects_add (h : g.Reflects inv) (resource : Resource) :
    (g.add resource).2.Reflects inv := by
  unfold add
  split
  · exact h
  · intro e mem s held
    rcases List.mem_append.1 mem with old | new
    · exact h e old s held
    · -- a resource comes without a snapshot
      rw [List.mem_singleton.1 new] at held
      cases held

/-- A registry just loaded has no snapshot. -/
theorem reflects_load (g : Registry) (inv : Inventory) : (g.load inv).Reflects inv := by
  have all (rs : List Resource) : ∀ g : Registry, g.Reflects inv →
      (rs.foldl (fun g resource => (g.add resource).2) g).Reflects inv := by
    induction rs with
    | nil => exact fun _ h => h
    | cons r rs ih => exact fun g h => ih _ (reflects_add h r)
  exact all inv.resources _ nofun

/-- A snapshot leaves with its resource. -/
theorem reflects_remove (h : g.Reflects inv) (id : ResourceId) : (g.remove id).2.Reflects inv := by
  unfold remove
  split
  · exact h
  · intro e mem s held
    exact h e (List.mem_of_mem_eraseP mem) s held

/-- Each operation keeps the snapshots true to the inventory. -/
theorem reflects_change (h : g.Reflects inv) (op : Operation) : (g.change inv op).Reflects inv := by
  cases op with
  | load => exact reflects_load g inv
  | add resource => exact reflects_add h resource
  | remove id => exact reflects_remove h id
  | setWorkingInterval interval => exact reflects_setWorkingInterval h interval
  | clearSnapshots => exact reflects_clearSnapshots g inv
  | refresh id interval => exact reflects_refresh h id interval
  | ensure id interval => exact reflects_ensure h id interval

/-! ## Operations in a row -/

/-- By induction on the operations. -/
theorem reflects_foldl (ops : List Operation) : ∀ {g : Registry}, g.Reflects inv →
    (ops.foldl (change inv) g).Reflects inv := by
  induction ops with
  | nil => exact fun h => h
  | cons op ops ih => exact fun h => ih (reflects_change h op)

/-- They are true to it whatever has been done to the registry. -/
theorem reflects_after (inv : Inventory) (ops : List Operation) : (after inv ops).Reflects inv :=
  reflects_foldl ops (reflects_empty inv)

/-- To make sure of a snapshot succeeds just if the resource is registered. -/
theorem ensure_fst (g : Registry) (id : ResourceId) (interval : Slot) (inv : Inventory) :
    (g.ensure id interval inv).1 = g.contains id := by
  rw [← isSome_find?]
  unfold ensure
  cases found : g.find? id with
  | none => rfl
  | some e =>
    have registered : (g.setWorkingInterval interval).contains id = true := by
      rw [contains_setWorkingInterval, ← isSome_find?, found]
      rfl
    simp only
    split
    · rfl
    · simp only [refresh, registered, if_true]
      rfl

/-- After it has succeeded, the resource has a snapshot that is read for the interval, and the
registry is there. -/
theorem views_ensure (h : g.Reflects inv) (interval : Slot) (registered : g.contains id) :
    (g.ensure id interval inv).2.workingInterval = some interval
      ∧ ∃ s, (g.ensure id interval inv).2.snapshot id = .ok s ∧ s.Views inv id interval := by
  have held : (g.ensure id interval inv).2.snapshot id = .ok (g.shown inv interval id) :=
    (snapshot_ensure registered).2
  rw [shown_of_reflects h] at held
  exact ⟨(snapshot_ensure registered).1, _, held, views_readSnapshot inv id interval⟩

/-- After any operations every snapshot is a view of the inventory for the working interval. Making
sure of a snapshot gives one for the interval that is asked for, unless the resource is not
registered; then nothing is changed. -/
theorem snapshots_are_views (inv : Inventory) (ops : List Operation) :
    (∀ e ∈ (after inv ops).entries, ∀ s, e.snapshot = some s →
      (after inv ops).workingInterval = some s.interval ∧ s.Views inv e.resource.id s.interval)
    ∧ ∀ (id : ResourceId) (interval : Slot),
      let made := (after inv ops).ensure id interval inv
      (made.1 = true → made.2.workingInterval = some interval
        ∧ ∃ s, made.2.snapshot id = .ok s ∧ s.Views inv id interval)
      ∧ (made.1 = false ↔ ¬ (after inv ops).contains id)
      ∧ (made.1 = false → made.2 = after inv ops) := by
  have reflects := reflects_after inv ops
  constructor
  · intro e mem s held
    obtain ⟨interval, current, rfl⟩ := reflects e mem s held
    exact ⟨current, views_readSnapshot inv e.resource.id interval⟩
  · intro id interval made
    -- whether a snapshot is made depends on the registration only
    have told : made.1 = (after inv ops).contains id := ensure_fst _ id interval inv
    rw [told]
    refine ⟨fun registered => views_ensure reflects interval registered, by simp, fun absent => ?_⟩
    exact ensure_of_not_contains (by simpa using absent)

/-- The device of the sample is read for one interval and, after a move by way of a resource that is
not registered, for another one. -/
theorem sample_snapshots_are_views :
    let inv := Sample.inventory
    let unknown : ResourceId := ⟨"ghost"⟩
    let later : Slot := ⟨2, 9, by decide⟩
    let g :=
      after inv [.load, .ensure Sample.device.id ⟨0, 8, by decide⟩, .refresh unknown later,
        .ensure Sample.device.id later]
    (∃ e ∈ g.entries, ∃ s, e.snapshot = some s ∧ g.workingInterval = some s.interval
      ∧ s.Views inv e.resource.id s.interval)
    ∧ ((g.ensure Sample.terminal.id later inv).1 = true
      ∧ ∃ s, (g.ensure Sample.terminal.id later inv).2.snapshot Sample.terminal.id = .ok s
        ∧ s.Views inv Sample.terminal.id later)
    ∧ (g.ensure unknown later inv).1 = false ∧ (g.ensure unknown later inv).2 = g := by
  intro inv unknown later g
  obtain ⟨views, made⟩ :=
    snapshots_are_views inv [.load, .ensure Sample.device.id ⟨0, 8, by decide⟩,
      .refresh unknown later, .ensure Sample.device.id later]
  -- what has to be evaluated: one snapshot is there, one resource is known, one is not
  have read : ((g.find? Sample.device.id).bind (·.snapshot)).isSome := by decide
  have registered : (g.ensure Sample.terminal.id later inv).1 = true := by decide
  have absent : (g.ensure unknown later inv).1 = false := by decide
  obtain ⟨s, held⟩ := Option.isSome_iff_exists.1 read
  obtain ⟨e, found, snapshot⟩ := Option.bind_eq_some_iff.1 held
  have mem : e ∈ g.entries := List.mem_of_find?_eq_some found
  refine ⟨⟨e, mem, s, snapshot, views e mem s snapshot⟩, ⟨registered, ?_⟩, absent, ?_⟩
  · exact ((made Sample.terminal.id later).1 registered).2
  · exact (made unknown later).2.2 absent

end Registry

end Conference
