import Conference.Proofs.Parallel.Alike
import Conference.Proofs.Session.Builds
import Conference.Proofs.Timeline.Load

/-!
# Ledgers with the same claims

What a ledger has in force counts by its claims: identifiers show in no peak and among no values. So
sessions whose ledgers hold the same claims allocate alike, wherever the numbering of identifiers
and keys has got to.
-/

namespace Conference

namespace Registry

/-- The usage of a resource: what a snapshot holds of it, then what the claims of a ledger say. -/
theorem entries_usageOf (s : Snapshot) (id : ResourceId) (dimension : Dimension) (l : Ledger) :
    (usageOf s id dimension l).entries.map (fun e => (e.item.usage, e.slot))
      = (s.allocations.entries.filter (·.item.usage.dimension == dimension)).map
          (fun e => (e.item.usage, e.slot))
        ++ (((l.applied.map Allocation.claim).filter (·.1 == id)).filter
          (·.2.2.dimension == dimension)).map fun c => (c.2.2, c.2.1) := by
  unfold usageOf
  rw [List.map_append, List.map_map, Ledger.appliedOn, List.filter_map,
    List.filter_map, List.map_map]
  rfl

/-- The usage of a resource is a matter of claims. -/
theorem entries_usageOf_congr {l m : Ledger}
    (claims : m.applied.map Allocation.claim = l.applied.map Allocation.claim) (s : Snapshot)
    (id : ResourceId) (dimension : Dimension) :
    (usageOf s id dimension m).entries.map (fun e => (e.item.usage, e.slot))
      = (usageOf s id dimension l).entries.map fun e => (e.item.usage, e.slot) := by
  rw [entries_usageOf, entries_usageOf, claims]

end Registry

/-- Sessions whose ledgers hold the same claims, with keys any number ahead, and with or without the
same reports. -/
def Likeness.claims (slot : Slot) (ahead : Nat) (reports : Prop) : Likeness slot where
  Ledgers l m := m.applied.map Allocation.claim = l.applied.map Allocation.claim
  ahead := ahead
  Reports := reports
  peak := by
    intro l m same snapshot id dimension
    have usages := congrArg (List.map fun p : Usage × Slot => (p.1.units, p.2))
      (Registry.entries_usageOf_congr same snapshot id dimension)
    rw [List.map_map, List.map_map] at usages
    exact Timeline.peak_of_weights usages
  values := by
    intro l m same snapshot id
    have usages :=
      Timeline.overlapping_congr (Registry.entries_usageOf_congr same snapshot id .values) slot
    have values := congrArg (List.filterMap Usage.value?) usages
    rw [List.filterMap_map, List.filterMap_map] at values
    exact values
  apply := by
    intro l m same id usage
    rw [Ledger.applied_apply, Ledger.applied_apply, List.map_append, List.map_append, same]
    rfl
  rollback := by
    intro l m l' m' same same'
    have size : m.size = l.size := by
      have lengths := congrArg List.length same
      rw [List.length_map, List.length_map] at lengths
      exact lengths
    rw [Ledger.applied_rollback, Ledger.applied_rollback, Ledger.savepoint, Ledger.savepoint, size,
      List.map_take, List.map_take, same']

end Conference
