import Conference.Proofs.Lookup
import Conference.Proofs.Pass.Run
import Conference.Proofs.Sample

/-!
# No overbooking

A claim is admitted if the peak over its slot leaves room for it, and no instant of the slot has
more in use than the peak. So each instant of the working interval stays within the capacity, or
within what had been committed beyond it already.
-/

namespace Conference

open Allocation

/-! ## Schedulers of an inventory -/

/-- A scheduler made for an inventory, after any passes over that inventory as it is. -/
inductive Scheduler.Serves (inv : Inventory) : Scheduler → Prop where
  | ofInventory : Serves inv (.ofInventory inv)
  | reload {s : Scheduler} : Serves inv s → Serves inv s.reload
  | openPass {s : Scheduler} (pass : String) (interval : Slot) :
      Serves inv s → Serves inv (s.openPass pass interval).2
  | allocate {s : Scheduler} {spec : Specification} {slot : Slot} {ledger : Ledger} {done :
    Allocated} : Serves inv s → s.allocate spec slot ledger = .ok done → Serves inv done.scheduler

namespace Scheduler.Serves

variable {inv : Inventory} {s : Scheduler}

theorem inventory_eq (h : Serves inv s) : s.inventory = inv := by
  induction h with
  | ofInventory => rfl
  | reload _ ih => exact ih
  | openPass _ _ _ ih => exact ih
  | allocate _ run ih =>
    obtain ⟨after, -, -, left⟩ := exists_reaches run
    rw [left]
    exact ih

/-- The registry knows the resources of the inventory. -/
theorem resources_eq (h : Serves inv s) (distinct : (inv.resources.map (·.id)).Nodup) :
    s.registry.resources = inv.resources := by
  induction h with
  | ofInventory => exact Registry.resources_load _ distinct
  | reload before ih =>
    show (Registry.load _ _).resources = _
    rw [before.inventory_eq]
    exact Registry.resources_load _ distinct
  | openPass pass interval _ ih => exact (resources_openPass _ pass interval).trans ih
  | allocate _ run ih =>
    obtain ⟨after, reached, -, left⟩ := exists_reaches run
    obtain ⟨made, builds⟩ := reached.exists_builds
    rw [left]
    exact (builds.agrees.resources.trans (Registry.resources_setWorkingInterval _ _)).trans ih

end Scheduler.Serves

/-! ## One claim -/

/-- Within the working interval, what is held at an instant of a slot counts in the load of the
slot. -/
theorem Session.heldAt_le_load (s : Session) (id : ResourceId) {slot : Slot} (dimension : Dimension)
    {instant : Int} (within : s.ledger.workingInterval.Covers instant)
    (asked : slot.Covers instant) :
    heldAt id dimension instant (s.inventory.allocations ++ s.ledger.applied)
      ≤ s.load id slot dimension := by
  rw [← Registry.loadAt_usageOf within]
  exact Timeline.loadAt_le_peak _ _ asked

/-- An admitted claim keeps within any bound that is no less than the capacity of its resource. -/
theorem Session.Admits.heldAt_le {s : Session} {a : Allocation}
    (admits : s.Admits a.resource a.slot a.usage) {r : Resource}
    (registered : s.resource? r.id = some r) {dimension : Dimension} {instant : Int}
    (within : s.ledger.workingInterval.Covers instant) {bound : Nat}
    (capacity : (r.capacity? dimension).getD 0 ≤ bound)
    (before : heldAt r.id dimension instant (s.inventory.allocations ++ s.ledger.applied) ≤ bound) :
    heldAt r.id dimension instant (s.inventory.allocations
      ++ (s.ledger.applied ++ [a])) ≤ bound := by
  rw [← List.append_assoc, heldAt_append, heldAt_singleton]
  by_cases taken : a.resource = r.id ∧ a.usage.dimension = dimension ∧ a.slot.Covers instant
  · -- the claim counts at the instant, so the peak that it was checked against does too
    obtain ⟨named, rfl, covers⟩ := taken
    have units : a.unitsAt r.id a.usage.dimension instant = a.usage.units :=
      if_pos ⟨named, rfl, covers⟩
    obtain ⟨r', found, room⟩ := admits.capacity
    rw [named] at found room
    have same : r' = r := Option.some.inj (found.symm.trans registered)
    subst same
    have held := s.heldAt_le_load r'.id a.usage.dimension within covers
    rw [units]
    omega
  · have units : a.unitsAt r.id dimension instant = 0 := if_neg taken
    rw [units]
    exact before

/-! ## All claims of a pass -/

/-- At each instant of the working interval, the committed and the tentative allocations of a
resource together keep within its capacity, unless the committed ones alone exceed it. -/
theorem Pass.no_overbooking {inv : Inventory} (distinct : (inv.resources.map (·.id)).Nodup)
    {scheduler : Scheduler} (serves : scheduler.Serves inv) {pass : String} {interval : Slot}
    {requests : List Request} {outcomes : List Outcome} {last : State}
    (run : Pass.run (opened scheduler pass interval) requests = .ok (outcomes, last))
    {r : Resource} (declared : r ∈ inv.resources) (dimension : Dimension) {instant : Int}
    (start_le : interval.start ≤ instant) (lt_stop : instant < interval.stop) :
    heldAt r.id dimension instant (inv.allocations ++ last.ledger.applied)
      ≤ max ((r.capacity? dimension).getD 0) (heldAt r.id dimension instant inv.allocations) := by
  have within : interval.Covers instant := by
    rw [Slot.covers_iff]
    exact ⟨start_le, Or.inl lt_stop⟩
  refine applied_of_run (P := fun applied =>
    heldAt r.id dimension instant (inv.allocations ++ applied)
    ≤ max ((r.capacity? dimension).getD 0)
      (heldAt r.id dimension instant inv.allocations)) ?_ ?_ run
  · intro u a same resources here admits before
    -- during the pass the inventory and the resources are those it began with
    have inventory : u.inventory = inv := same.trans serves.inventory_eq
    have registered : u.resource? r.id = some r := by
      show u.registry.get? r.id = some r
      rw [Registry.get?_eq_find?, resources, serves.resources_eq distinct]
      exact find?_key_of_mem distinct declared
    rw [← inventory] at before ⊢
    rw [← here] at within
    exact admits.heldAt_le registered within (Nat.le_max_left _ _) before
  · rw [List.append_nil]
    exact Nat.le_max_right _ _

/-- The first meeting of the sample takes the last licenses of the device. -/
theorem Pass.sample_not_overbooked :
    let start := opened (.ofInventory Sample.inventory) "pass" ⟨0, 100, by decide⟩
    ∃ outcomes last, Pass.run start Sample.requests = .ok (outcomes, last)
      ∧ heldAt Sample.device.id .roomLicenses 4
        (Sample.inventory.allocations ++ last.ledger.applied)
        ≤ max ((Sample.device.capacity? .roomLicenses).getD 0)
          (heldAt Sample.device.id .roomLicenses 4 Sample.inventory.allocations) := by
  intro start
  -- that the pass ends without a fault is evaluated, the bound is not
  have finishes : (Pass.run start Sample.requests).isOk = true := by decide +kernel
  cases run : Pass.run start Sample.requests with
  | error fault =>
    rw [run] at finishes
    cases finishes
  | ok p =>
    refine ⟨p.1, p.2, rfl, ?_⟩
    exact Pass.no_overbooking (by decide) .ofInventory run List.mem_cons_self .roomLicenses
      (by decide) (by decide)

end Conference
