import Conference.Proofs.Parallel.Claims

/-!
# Ledgers that differ outside of a slot

Claims for slots that do not overlap the slot of an allocation take part in none of its decisions:
they are members of no segment that it sweeps, cut none, and hand out no values there. So sessions
allocate alike whose ledgers hold the same claims during the slot, and any others besides.
-/

namespace Conference

/-- The claims that count during a slot. -/
def claimsDuring (slot : Slot) (as : List Allocation) : List (ResourceId × Slot × Usage) :=
  (as.map Allocation.claim).filter fun c => c.2.1.overlaps slot

theorem claimsDuring_append (slot : Slot) (as bs : List Allocation) :
    claimsDuring slot (as ++ bs) = claimsDuring slot as ++ claimsDuring slot bs := by
  rw [claimsDuring, List.map_append, List.filter_append]
  rfl

/-- What is claimed after two lists alike counts alike during the slot. -/
theorem claimsDuring_congr {slot : Slot} {base base' new new' : List Allocation}
    (same : claimsDuring slot base' = claimsDuring slot base)
    (since : new'.map Allocation.claim = new.map Allocation.claim) :
    claimsDuring slot (base' ++ new') = claimsDuring slot (base ++ new) := by
  rw [claimsDuring_append, claimsDuring_append, same]
  unfold claimsDuring
  rw [since]

/-- Allocations for another slot that does not overlap count nothing. -/
theorem claimsDuring_of_apart {slot other : Slot} (apart : other.overlaps slot = false)
    {as : List Allocation} (others : ∀ a ∈ as, a.slot = other) : claimsDuring slot as = [] := by
  unfold claimsDuring
  rw [List.filter_eq_nil_iff]
  intro c hc
  obtain ⟨a, mem, rfl⟩ := List.mem_map.1 hc
  show ¬ a.slot.overlaps slot = true
  rw [others a mem, apart]
  exact Bool.false_ne_true

/-- During a slot the usage of a resource is a matter of the claims that count there. -/
theorem Registry.overlapping_usageOf_congr {slot : Slot} {l m : Ledger}
    (same : claimsDuring slot m.applied = claimsDuring slot l.applied) (s : Snapshot)
    (id : ResourceId) (dimension : Dimension) :
    ((usageOf s id dimension m).entries.map fun e => (e.item.usage, e.slot)).filter
      (·.2.overlaps slot)
      = ((usageOf s id dimension l).entries.map fun e => (e.item.usage, e.slot)).filter
        (·.2.overlaps slot) := by
  -- the filters commute, so the claims during the slot may be taken first
  have tentative (l : Ledger) :
      ((((l.applied.map Allocation.claim).filter (·.1 == id)).filter
        (·.2.2.dimension == dimension)).map
          fun c => (c.2.2, c.2.1)).filter (fun p : Usage × Slot => p.2.overlaps slot)
        = (((claimsDuring slot l.applied).filter (·.1 == id)).filter
          (·.2.2.dimension == dimension)).map
          fun c => (c.2.2, c.2.1) := by
    rw [List.filter_map, claimsDuring, List.filter_filter, List.filter_filter, List.filter_filter,
      List.filter_filter]
    congr 1
    refine List.filter_congr fun c _ => ?_
    rw [Function.comp_apply, Bool.and_assoc, Bool.and_comm]
  rw [entries_usageOf, entries_usageOf, List.filter_append, List.filter_append,
    tentative, tentative, same]

/-- Sessions that start out from two lists of allocations with the same claims during the slot, and
have claimed the same since then. -/
def Likeness.outside (slot : Slot) (base base' : List Allocation)
    (same : claimsDuring slot base' = claimsDuring slot base) : Likeness slot where
  Ledgers l m := ∃ new new', l.applied = base ++ new ∧ m.applied = base' ++ new'
    ∧ new'.map Allocation.claim = new.map Allocation.claim
  ahead := 0
  Reports := True
  peak := by
    rintro l m ⟨new, new', left, right, since⟩ snapshot id dimension
    have during : claimsDuring slot m.applied = claimsDuring slot l.applied := by
      rw [left, right]
      exact claimsDuring_congr same since
    have usages := congrArg (List.map fun p : Usage × Slot => (p.1.units, p.2))
      (Registry.overlapping_usageOf_congr during snapshot id dimension)
    refine Timeline.peak_of_overlapping_weights ?_
    rw [List.filter_map, List.filter_map] at usages ⊢
    rw [List.map_map, List.map_map] at usages
    exact usages
  values := by
    rintro l m ⟨new, new', left, right, since⟩ snapshot id
    have during : claimsDuring slot m.applied = claimsDuring slot l.applied := by
      rw [left, right]
      exact claimsDuring_congr same since
    have usages := congrArg (List.map Prod.fst)
      (Registry.overlapping_usageOf_congr during snapshot id .values)
    rw [← Timeline.map_overlapping, ← Timeline.map_overlapping] at usages
    have values := congrArg (List.filterMap Usage.value?) usages
    rw [List.filterMap_map, List.filterMap_map] at values
    exact values
  apply := by
    rintro l m ⟨new, new', left, right, since⟩ id usage
    refine ⟨new ++ [⟨l.nextId, id, slot, usage⟩], new' ++ [⟨m.nextId, id, slot, usage⟩], ?_, ?_, ?_⟩
    · rw [Ledger.applied_apply, left, List.append_assoc]
    · rw [Ledger.applied_apply, right, List.append_assoc]
    · rw [List.map_append, List.map_append, since]
      rfl
  rollback := by
    rintro l m l' m' ⟨new, new', left, right, since⟩ ⟨later, later', left', right', since'⟩
    -- as much has been claimed since on either side, so both savepoints lie equally far back
    have size : new'.length = new.length := by
      have lengths := congrArg List.length since
      rwa [List.length_map, List.length_map] at lengths
    refine ⟨later.take new.length, later'.take new'.length, ?_, ?_, ?_⟩
    · rw [Ledger.applied_rollback, Ledger.savepoint, Ledger.size, left, left', List.length_append,
        List.take_length_add_append]
    · rw [Ledger.applied_rollback, Ledger.savepoint, Ledger.size, right, right', List.length_append,
        List.take_length_add_append]
    · rw [List.map_take, List.map_take, since', size]

end Conference
