import Conference.Resource
import Conference.Reservation.Forest

/-!
# Inventories

The resources of a domain and the allocations that are committed on them. Committing a finished tree
turns each of its capacity claims into an allocation with a reservation identifier of the domain;
these are numbered through and never repeat.
-/

namespace Conference

structure Inventory where
  domain : String
  /-- The resources, in order of declaration. -/
  resources : List Resource
  allocations : List Allocation
  /-- The number of reservation identifiers given out. -/
  committed : Nat
deriving DecidableEq

namespace Inventory

def empty (domain : String) : Inventory := ⟨domain, [], [], 0⟩

def declares (inv : Inventory) (id : ResourceId) : Bool := inv.resources.any (·.id == id)

/-- Adds a resource unless its identifier is declared already. -/
def addResource (inv : Inventory) (resource : Resource) : Bool × Inventory :=
  if inv.declares resource.id then (false, inv)
  else (true, { inv with resources := inv.resources ++ [resource] })

/-- Removes a resource and its allocations. -/
def removeResource (inv : Inventory) (id : ResourceId) : Option Resource × Inventory :=
  match inv.resources.find? (·.id == id) with
  | none => (none, inv)
  | some resource =>
    (some resource,
      { inv with
        resources := inv.resources.eraseP (·.id == id)
        allocations := inv.allocations.filter (fun a => !(a.resource == id)) })

/-- Adds a committed allocation. Its resource need not be declared. -/
def addAllocation (inv : Inventory) (allocation : Allocation) : Inventory :=
  { inv with allocations := inv.allocations ++ [allocation] }

/-- The committed allocations of a resource that overlap an interval. -/
def allocationsWithin (inv : Inventory) (id : ResourceId) (interval : Slot) : List Allocation :=
  inv.allocations.filter (fun a => a.resource == id && a.slot.overlaps interval)

def reservationId (inv : Inventory) (n : Nat) : GlobalId := ⟨inv.domain, .reservation, .number n⟩

/-- Commits capacity claims in their order. The identifiers of the new allocations come with the
result. -/
def commitClaims (inv : Inventory) : List (ResourceId × Slot × Usage) → List GlobalId × Inventory
  | [] => ([], inv)
  | (resource, slot, usage) :: claims =>
    let id := inv.reservationId (inv.committed + 1)
    let allocation : Allocation := ⟨⟨id.render⟩, resource, slot, usage⟩
    let rest := commitClaims
      { inv with
        allocations := inv.allocations ++ [allocation]
        committed := inv.committed + 1 }
      claims
    (id :: rest.1, rest.2)

/-- The capacity claims of the nodes of a tree, in pre-order. -/
def claimsOf (tree : ReservationForest) : List (ResourceId × Slot × Usage) :=
  tree.nodes.filterMap (·.2.claim?)

def commit (inv : Inventory) (tree : ReservationForest) : List GlobalId × Inventory :=
  inv.commitClaims (claimsOf tree)

end Inventory

end Conference
