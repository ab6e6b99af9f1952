import Conference.Resource

/-!
# Ledgers

The tentative allocations of one scheduling pass. Allocations are applied one after the other; a
savepoint is the number of those applied so far, and rolling back to it drops all later ones.
Identifiers are numbered through and are not given out again after a rollback.
-/

namespace Conference

structure Ledger where
  pass : String
  workingInterval : Slot
  /-- The allocations in force, in the order in which they were applied. -/
  applied : List Allocation
  /-- The number of identifiers given out. -/
  issued : Nat
deriving DecidableEq

namespace Ledger

def empty (pass : String) (workingInterval : Slot) : Ledger := ⟨pass, workingInterval, [], 0⟩

/-- The identifier that is given out next. -/
def nextId (l : Ledger) : AllocationId := ⟨l.pass ++ "/" ++ toString (l.issued + 1)⟩

def apply (l : Ledger) (resource : ResourceId) (slot : Slot) (usage : Usage) : Ledger :=
  { l with
    applied := l.applied ++ [⟨l.nextId, resource, slot, usage⟩]
    issued := l.issued + 1 }

def appliedOn (l : Ledger) (resource : ResourceId) : List Allocation :=
  l.applied.filter (·.resource == resource)

def size (l : Ledger) : Nat := l.applied.length

/-- The number of allocations in force, to roll back to. -/
def savepoint (l : Ledger) : Nat := l.size

/-- Drops the allocations after a savepoint. -/
def rollback (l : Ledger) (savepoint : Nat) : Ledger :=
  { l with applied := l.applied.take savepoint }

/-! ## What the operations do to the allocations in force -/

@[simp]
theorem applied_apply (l : Ledger) (resource : ResourceId) (slot : Slot) (usage : Usage) :
    (l.apply resource slot usage).applied = l.applied ++ [⟨l.nextId, resource, slot, usage⟩] := rfl

@[simp]
theorem applied_rollback (l : Ledger) (savepoint : Nat) :
    (l.rollback savepoint).applied = l.applied.take savepoint := rfl

@[simp]
theorem size_apply (l : Ledger) (resource : ResourceId) (slot : Slot) (usage : Usage) :
    (l.apply resource slot usage).size = l.size + 1 := by
  rw [size, applied_apply, List.length_append, size]
  rfl

@[simp]
theorem size_rollback (l : Ledger) (savepoint : Nat) :
    (l.rollback savepoint).size = min savepoint l.size := by
  rw [size, applied_rollback, List.length_take, size]

end Ledger

end Conference
