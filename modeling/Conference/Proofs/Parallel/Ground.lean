import Conference.Proofs.Registry.Shown
import Conference.Proofs.Session.Quiet

/-!
# The ground of an allocation

Allocation reads the inventory, the registered resources and their snapshots, and changes none of
them. Only which snapshots are there already changes as it goes on. So everything that it finds out
about a resource is settled from the start by the ground that the session stands on, and by the
ledger.
-/

namespace Conference

/-- What allocations read and never change. -/
structure Ground where
  inventory : Inventory
  roll : List (Resource × Nat) × Nat
  interval : Slot
  shown : ResourceId → Snapshot

namespace Session

/-- A resource that fails the check leaves the session alone. -/
theorem checkResource_of_error {s : Session} {id : ResourceId} {slot : Slot} {reason : Report}
    (refused : (s.checkResource id slot).1 = .error reason) : (s.checkResource id slot).2 = s := by
  unfold checkResource at refused ⊢
  -- a snapshot is only made after all conditions hold
  split
  · rfl
  · rename_i found
    rw [found] at refused
    simp only at refused ⊢
    split
    · rfl
    · rename_i usable
      rw [if_neg usable] at refused
      split
      · rfl
      · rename_i near
        rw [if_neg near] at refused
        cases refused

/-- What the check of a resource comes to depends on the resource and the working interval only. -/
theorem checkResource_congr {s t : Session} {id : ResourceId}
    (resource : t.resource? id = s.resource? id)
    (interval : t.ledger.workingInterval = s.ledger.workingInterval) (slot : Slot) :
    (t.checkResource id slot).1 = (s.checkResource id slot).1 := by
  unfold checkResource
  rw [resource, interval]
  split
  · rfl
  · split
    · rfl
    · simp only
      split <;> rfl

/-- The session works on the ground, and has the snapshots of some resources read. -/
structure Stands (G : Ground) (read : List ResourceId) (s : Session) : Prop where
  inventory : s.inventory = G.inventory
  roll : s.registry.roll = G.roll
  interval : s.ledger.workingInterval = G.interval
  shown : ∀ id, s.registry.shown G.inventory G.interval id = G.shown id
  read : ∀ id ∈ read, s.registry.workingInterval = some G.interval
    ∧ s.registry.snapshot id = .ok (G.shown id)

/-- The ground on which a session stands. -/
def ground (s : Session) : Ground where
  inventory := s.inventory
  roll := s.registry.roll
  interval := s.ledger.workingInterval
  shown := s.registry.shown s.inventory s.ledger.workingInterval

theorem stands_ground (s : Session) : s.Stands s.ground [] where
  inventory := rfl
  roll := rfl
  interval := rfl
  shown := fun _ => rfl
  read := fun _ mem => nomatch mem

namespace Stands

variable {G : Ground} {read : List ResourceId} {s t : Session}

theorem congr (h : s.Stands G read) (registry : t.registry = s.registry)
    (inventory : t.inventory = s.inventory)
    (interval : t.ledger.workingInterval = s.ledger.workingInterval) : t.Stands G read where
  inventory := inventory.trans h.inventory
  roll := by
    rw [registry]
    exact h.roll
  interval := interval.trans h.interval
  shown := by
    rw [registry]
    exact h.shown
  read := by
    rw [registry]
    exact h.read

theorem of_subset {read' : List ResourceId} (h : s.Stands G read) (subset : read' ⊆ read) :
    s.Stands G read' :=
  { h with read := fun id mem => h.read id (subset mem) }

theorem ensure (h : s.Stands G read) (id : ResourceId) : (s.ensure id).2.Stands G read where
  inventory := h.inventory
  roll := (Registry.roll_ensure _ _ _ _).trans h.roll
  interval := h.interval
  shown := by
    intro other
    rw [← h.inventory, ← h.interval, ← h.shown other, ← h.inventory, ← h.interval]
    exact Registry.shown_ensure s.registry s.inventory s.ledger.workingInterval id other
  read := by
    intro other mem
    obtain ⟨moved, held⟩ := h.read other mem
    rw [← h.shown other, ← h.inventory] at held ⊢
    rw [← h.interval] at moved held ⊢
    exact ⟨Registry.workingInterval_ensure moved id s.inventory,
      Registry.snapshot_ensure_of_shown moved id held⟩

theorem ensure_read (h : s.Stands G read) {id : ResourceId} (registered : s.registry.contains id) :
    (s.ensure id).2.Stands G (id :: read) := by
  refine { h.ensure id with read := fun other mem => ?_ }
  rcases List.mem_cons.1 mem with rfl | old
  · rw [← h.shown other, ← h.inventory, ← h.interval]
    exact Registry.snapshot_ensure registered
  · exact (h.ensure id).read other old

/-- A move to the working interval finds the same ground. -/
theorem setWorkingInterval (h : s.Stands G []) :
    { s with registry := s.registry.setWorkingInterval G.interval }.Stands G [] where
  inventory := h.inventory
  roll := (Registry.roll_setWorkingInterval _ _).trans h.roll
  interval := h.interval
  shown := fun id => (Registry.shown_setWorkingInterval _ _ _ id).trans (h.shown id)
  read := fun _ mem => nomatch mem

theorem resource?_eq {read' : List ResourceId} (h : s.Stands G read) (h' : t.Stands G read')
    (id : ResourceId) : t.resource? id = s.resource? id :=
  Registry.get?_congr (Registry.resources_of_roll (h'.roll.trans h.roll.symm)) id

/-- The check of a resource comes to the same on the same ground. -/
theorem checkResource_eq {read' : List ResourceId} (h : s.Stands G read) (h' : t.Stands G read')
    (id : ResourceId) (slot : Slot) : (t.checkResource id slot).1 = (s.checkResource id slot).1 :=
  checkResource_congr (resource?_eq h h' id) (h'.interval.trans h.interval.symm) slot

/-- A resource that passes the check has its snapshot read. -/
theorem checkResource (h : s.Stands G read) {id : ResourceId} {slot : Slot} {r : Resource}
    (passed : (s.checkResource id slot).1 = .ok r) :
    (s.checkResource id slot).2.Stands G (id :: read) := by
  have found := resource?_of_checkResource passed
  -- a resource that passes is registered, so its snapshot has been made
  have registered : s.registry.contains id := by
    rw [← Registry.isSome_find?]
    have there : (s.registry.get? id).isSome := Option.isSome_iff_exists.2 ⟨r, found⟩
    rw [Registry.get?, Option.isSome_map] at there
    exact there
  have read := h.ensure_read registered
  unfold Session.checkResource at passed ⊢
  rw [found] at passed ⊢
  simp only at passed ⊢
  split at passed
  · cases passed
  · split at passed
    · cases passed
    · rename_i usable near
      rw [if_neg usable, if_neg near]
      exact read

theorem used (h : s.Stands G read) {id : ResourceId} (mem : id ∈ read) (slot : Slot)
    (dimension : Dimension) :
    s.used id slot dimension
      = .ok ((Registry.usageOf (G.shown id) id dimension s.ledger).peak slot.start slot.stop
        (·.usage.units)) := by
  unfold Session.used Registry.used
  rw [(h.read id mem).2]
  rfl

theorem allocatedValues (h : s.Stands G read) {id : ResourceId} (mem : id ∈ read) (slot : Slot) :
    s.allocatedValues id slot
      = .ok (((Registry.usageOf (G.shown id) id .values s.ledger).overlapping slot).filterMap
        (·.usage.value?)) := by
  unfold Session.allocatedValues Registry.allocatedValues
  rw [(h.read id mem).2]
  rfl

end Stands

end Session

end Conference
