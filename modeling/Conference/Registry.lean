import Conference.Inventory
import Conference.Ledger
import Conference.Timeline

/-!
# Registries

A registry knows the resources of an inventory in order of registration, and keeps for each of them
a *snapshot*: the committed allocations within the working interval, clipped to it. A snapshot is
read from the inventory when it is needed and dropped when the working interval changes. With the
tentative allocations of a ledger it tells how much of a resource is in use.
-/

namespace Conference

/-- The committed allocations of a resource, clipped to an interval. -/
structure Snapshot where
  interval : Slot
  allocations : Timeline Allocation

structure Registered where
  resource : Resource
  /-- The place in the order of registration, which settles ties between resources. -/
  index : Nat
  snapshot : Option Snapshot

structure Registry where
  entries : List Registered
  workingInterval : Option Slot
  nextIndex : Nat

namespace Registry

def empty : Registry := ⟨[], none, 0⟩

def size (g : Registry) : Nat := g.entries.length

def find? (g : Registry) (id : ResourceId) : Option Registered :=
  g.entries.find? (·.resource.id == id)

def contains (g : Registry) (id : ResourceId) : Bool := g.entries.any (·.resource.id == id)

def get? (g : Registry) (id : ResourceId) : Option Resource := (g.find? id).map (·.resource)

def index? (g : Registry) (id : ResourceId) : Option Nat := (g.find? id).map (·.index)

def hasSnapshot (g : Registry) (id : ResourceId) : Bool :=
  ((g.find? id).bind (·.snapshot)).isSome

/-- Registers a resource unless its identifier is registered already. -/
def add (g : Registry) (resource : Resource) : Bool × Registry :=
  if g.contains resource.id then (false, g)
  else (true,
    { g with
      entries := g.entries ++ [⟨resource, g.nextIndex, none⟩]
      nextIndex := g.nextIndex + 1 })

def remove (g : Registry) (id : ResourceId) : Option Resource × Registry :=
  match g.find? id with
  | none => (none, g)
  | some entry =>
    (some entry.resource, { g with entries := g.entries.eraseP (·.resource.id == id) })

/-- Registers the resources of an inventory, and no others. -/
def load (g : Registry) (inv : Inventory) : Registry :=
  inv.resources.foldl (fun g resource => (g.add resource).2)
    { g with entries := [], nextIndex := 0 }

/-- The identifiers of the resources that satisfy `p`, in order of registration. -/
def select (g : Registry) (p : Resource → Bool) : List ResourceId :=
  ((g.entries.map (·.resource)).filter p).map (·.id)

def clearSnapshots (g : Registry) : Registry :=
  { g with entries := g.entries.map (fun e => { e with snapshot := none }) }

/-- Moves to a working interval. Snapshots are dropped if it is a new one. -/
def setWorkingInterval (g : Registry) (interval : Slot) : Registry :=
  if g.workingInterval = some interval then g
  else { g with workingInterval := some interval }.clearSnapshots

/-- Adds an allocation to a timeline, as far as it lies within the interval. -/
def addClipped (interval : Slot) (t : Timeline Allocation) (a : Allocation) : Timeline Allocation :=
  match a.slot.intersect? interval with
  | some clipped => t.add { a with slot := clipped } clipped.start clipped.stop
  | none => t

def readSnapshot (inv : Inventory) (id : ResourceId) (interval : Slot) : Snapshot :=
  ⟨interval, (inv.allocationsWithin id interval).foldl (addClipped interval) .empty⟩

/-- Moves to a working interval and reads the snapshot of a resource anew, if it is registered. -/
def refresh (g : Registry) (id : ResourceId) (interval : Slot) (inv : Inventory) :
    Bool × Registry :=
  let moved := g.setWorkingInterval interval
  if moved.contains id then
    (true,
      { moved with
        entries := moved.entries.map (fun e =>
          if e.resource.id == id then
            { e with snapshot := some (readSnapshot inv id interval) } else e) })
  else (false, moved)

/-- The resource has a snapshot of the working interval, which is the given one. -/
def isFresh (g : Registry) (entry : Registered) (interval : Slot) : Bool :=
  (entry.snapshot.any (·.interval == interval)) && g.workingInterval == some interval

/-- Refreshes a resource unless its snapshot is fresh. Without such a resource nothing changes. -/
def ensure (g : Registry) (id : ResourceId) (interval : Slot) (inv : Inventory) : Bool × Registry :=
  match g.find? id with
  | none => (false, g)
  | some entry => if g.isFresh entry interval then (true, g) else g.refresh id interval inv

/-- The snapshot of a resource. To ask for one that has not been read is a fault. -/
def snapshot (g : Registry) (id : ResourceId) : Except Fault Snapshot :=
  match (g.find? id).bind (·.snapshot) with
  | some s => .ok s
  | none => .error (.resourceStateMissing id)

/-- The allocations of a resource in one dimension: those of a snapshot, then those of a ledger. -/
def usageOf (s : Snapshot) (id : ResourceId) (dimension : Dimension) (l : Ledger) :
    Timeline Allocation :=
  let committed := s.allocations.entries.filter (·.item.usage.dimension == dimension)
  let tentative := (l.appliedOn id).filter (·.usage.dimension == dimension)
  ⟨committed ++ tentative.map (fun a => ⟨a, a.slot⟩)⟩

/-- The largest amount of capacity of a resource in use at once during a slot. -/
def used (g : Registry) (id : ResourceId) (slot : Slot) (dimension : Dimension) (l : Ledger) :
    Except Fault Nat :=
  (g.snapshot id).map fun s =>
    (usageOf s id dimension l).peak slot.start slot.stop (·.usage.units)

/-- The values of a provider that are handed out during a slot. -/
def allocatedValues (g : Registry) (id : ResourceId) (slot : Slot) (l : Ledger) :
    Except Fault (List String) :=
  (g.snapshot id).map fun s =>
    (((usageOf s id .values l).overlapping slot).filterMap (·.usage.value?))

/-! ## Which resources are registered -/

theorem isSome_find? (g : Registry) (id : ResourceId) : (g.find? id).isSome = g.contains id := by
  rw [Bool.eq_iff_iff, find?, List.find?_isSome, contains, List.any_eq_true]

end Registry

end Conference
