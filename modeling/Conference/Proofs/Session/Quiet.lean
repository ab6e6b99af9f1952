import Conference.Proofs.Registry.Usage
import Conference.Session

/-!
# Quiet steps

Most of what an allocation does to its session is bookkeeping: it writes reports, opens and closes
them, and reads snapshots. Such a step is *quiet*. It leaves the ledger, the inventory, the
registered resources and the reservations alone, and snapshots that agreed with the inventory still
do. So what has been found out about a resource stays true until capacity is claimed.
-/

namespace Conference.Session

/-- The registry shows the inventory as it is within the working interval of the ledger. -/
structure Current (s : Session) : Prop where
  workingInterval : s.registry.workingInterval = some s.ledger.workingInterval
  reflects : s.registry.Reflects s.inventory

/-- From `s` to `t` only reports, scopes and snapshots have changed. -/
structure Quiet (s t : Session) : Prop where
  ledger : t.ledger = s.ledger
  inventory : t.inventory = s.inventory
  reservations : t.reservations = s.reservations
  resources : t.registry.resources = s.registry.resources
  current : s.Current → t.Current

namespace Quiet

variable {s t u : Session}

theorem refl (s : Session) : s.Quiet s := ⟨rfl, rfl, rfl, rfl, id⟩

/-- Quiet steps compose. -/
theorem trans (h : s.Quiet t) (h' : t.Quiet u) : s.Quiet u where
  ledger := h'.ledger.trans h.ledger
  inventory := h'.inventory.trans h.inventory
  reservations := h'.reservations.trans h.reservations
  resources := h'.resources.trans h.resources
  current := fun current => h'.current (h.current current)

/-- A step that does not even read snapshots is quiet. -/
theorem of_registry (ledger : t.ledger = s.ledger) (inventory : t.inventory = s.inventory)
    (reservations : t.reservations = s.reservations) (registry : t.registry = s.registry) :
    s.Quiet t where
  ledger := ledger
  inventory := inventory
  reservations := reservations
  resources := by rw [registry]
  current := by
    intro current
    refine ⟨?_, ?_⟩
    · rw [registry, ledger]
      exact current.workingInterval
    · rw [registry, inventory]
      exact current.reflects

end Quiet

/-! ## Reports -/

section Reports

variable (s : Session)

theorem quiet_addReport (report : Report) : s.Quiet (s.addReport report) :=
  .of_registry rfl rfl rfl rfl

theorem quiet_openReport (report : Report) : s.Quiet (s.openReport report) :=
  .of_registry rfl rfl rfl rfl

theorem quiet_closeReport : s.Quiet s.closeReport := .of_registry rfl rfl rfl rfl

/-- Marking the open report changes the reports only. -/
theorem quiet_closeError : s.Quiet s.closeError := by
  unfold closeError
  split
  · exact .refl s
  · exact .of_registry rfl rfl rfl rfl

theorem quiet_addError (report : Report) : s.Quiet (s.addError report) :=
  .of_registry rfl rfl rfl rfl

/-- A failure is reported and does nothing else. -/
theorem quiet_fail (report : Report) : s.Quiet (s.fail report).2 := s.quiet_addError report

theorem quiet_enter (report : Report) : s.Quiet (s.enter report) :=
  .of_registry rfl rfl rfl rfl

theorem quiet_leave : s.Quiet s.leave := .of_registry rfl rfl rfl rfl

theorem quiet_leaveError : s.Quiet s.leaveError := .of_registry rfl rfl rfl rfl

end Reports

/-! ## Snapshots -/

/-- To have a snapshot read leaves the resources as they are. If all snapshots were right before, so
is the new one. -/
theorem quiet_ensure (s : Session) (id : ResourceId) : s.Quiet (s.ensure id).2 where
  ledger := rfl
  inventory := rfl
  reservations := rfl
  resources := Registry.resources_ensure _ _ _ _
  current := fun current =>
    ⟨Registry.workingInterval_ensure current.workingInterval _ _,
      Registry.reflects_ensure current.reflects _ _⟩

/-- A check has the snapshot of the resource read only if it passes. -/
theorem quiet_checkResource (s : Session) (id : ResourceId) (slot : Slot) :
    s.Quiet (s.checkResource id slot).2 := by
  unfold checkResource
  split
  · exact .refl s
  · split
    · exact .refl s
    · simp only
      split
      · exact .refl s
      · exact s.quiet_ensure id

/-- A resource that passes the check is the registered one. -/
theorem resource?_of_checkResource {s : Session} {id : ResourceId} {slot : Slot} {r : Resource}
    (passed : (s.checkResource id slot).1 = .ok r) : s.resource? id = some r := by
  unfold checkResource at passed
  split at passed
  · cases passed
  · rename_i r' found
    split at passed
    · cases passed
    · simp only at passed
      split at passed
      · cases passed
      · rw [found, Except.ok.inj passed]

/-- After quiet steps the same resources are registered. -/
theorem Quiet.resource? {s t : Session} (h : s.Quiet t) (id : ResourceId) :
    t.resource? id = s.resource? id := Registry.get?_congr h.resources id

/-! ## What is in use -/

/-- The largest amount of capacity in use at once during a slot, as the inventory and the ledger
have it. -/
def load (s : Session) (id : ResourceId) (slot : Slot) (dimension : Dimension) : Nat :=
  (Registry.usageOf (Registry.readSnapshot s.inventory id s.ledger.workingInterval) id dimension
    s.ledger).peak slot.start slot.stop (·.usage.units)

/-- The use of a resource is read off the inventory and the ledger, which quiet steps keep. -/
theorem Quiet.load {s t : Session} (h : s.Quiet t) (id : ResourceId) (slot : Slot)
    (dimension : Dimension) : t.load id slot dimension = s.load id slot dimension := by
  unfold Session.load
  rw [h.ledger, h.inventory]

/-- Where the snapshots are right, what is found to be in use is what the inventory and the ledger
say. -/
theorem Current.used_eq {s : Session} (current : s.Current) {id : ResourceId} {slot : Slot}
    {dimension : Dimension} {n : Nat} (found : s.used id slot dimension = .ok n) :
    n = s.load id slot dimension := by
  unfold used Registry.used at found
  cases shown : s.registry.snapshot id with
  | error fault =>
    rw [shown] at found
    cases found
  | ok snapshot =>
    rw [shown] at found
    cases found
    -- a snapshot that reflects the inventory is what reading it again would give
    rw [Registry.eq_readSnapshot current.reflects current.workingInterval shown]
    rfl

/-- Where the snapshots are right, the values found to be handed out are those of the inventory and
the ledger. -/
theorem Current.allocatedValues_eq {s : Session} (current : s.Current) {id : ResourceId}
    {slot : Slot} {values : List String} (found : s.allocatedValues id slot = .ok values) :
    values = Registry.valuesDuring s.inventory id s.ledger.workingInterval slot s.ledger := by
  unfold allocatedValues Registry.allocatedValues at found
  cases shown : s.registry.snapshot id with
  | error fault =>
    rw [shown] at found
    cases found
  | ok snapshot =>
    rw [shown] at found
    cases found
    rw [Registry.eq_readSnapshot current.reflects current.workingInterval shown]
    rfl

end Conference.Session
