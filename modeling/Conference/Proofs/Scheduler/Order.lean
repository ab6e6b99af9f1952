import Conference.Proofs.Parallel.Apart
import Conference.Proofs.Scheduler.DryRun
import Mathlib.Data.Multiset.Basic

/-!
# The order of requests apart

Requests for slots that do not overlap may be put in either order. All that the first one leaves to
the second one are claims for a slot apart from its own, and these count for nothing there.
-/

namespace Conference

/-- What a ledger has in force for a resource, in no order. -/
def Ledger.booked (l : Ledger) (resource : ResourceId) : Multiset (Slot × Usage) :=
  ↑((l.appliedOn resource).map fun a => (a.slot, a.usage))

/-- Among some claims those of a resource, in no order. -/
def bookings (resource : ResourceId) (claims : List (ResourceId × Slot × Usage)) :
    Multiset (Slot × Usage) :=
  ↑((claims.filter (·.1 == resource)).map (·.2))

theorem bookings_of_perm {claims claims' : List (ResourceId × Slot × Usage)}
    (perm : claims'.Perm claims) (resource : ResourceId) :
    bookings resource claims' = bookings resource claims :=
  Multiset.coe_eq_coe.2 ((perm.filter _).map _)

theorem Ledger.booked_eq (l : Ledger) (resource : ResourceId) :
    l.booked resource = bookings resource (l.applied.map Allocation.claim) := by
  rw [booked, bookings, appliedOn, List.filter_map, List.map_map]
  rfl

namespace Scheduler

variable {s : Scheduler} {spec spec' : Specification} {slot slot' : Slot}
  {l : Ledger} {done : Allocated}

/-- After an allocation, one in a slot apart comes to the same as without it, and claims the
same. -/
theorem allocate_apart (apart : slot.overlaps slot' = false)
    (run : s.allocate spec slot l = .ok done) (spec' : Specification) :
    (∃ alone after, s.allocate spec' slot' l = .ok alone
        ∧ done.scheduler.allocate spec' slot' done.ledger = .ok after ∧ after.result = alone.result
        ∧ ∃ new, alone.ledger.applied.map Allocation.claim = l.applied.map Allocation.claim ++ new
          ∧ after.ledger.applied.map Allocation.claim
            = done.ledger.applied.map Allocation.claim ++ new)
      ∨ ∃ fault, s.allocate spec' slot' l = .error fault
        ∧ done.scheduler.allocate spec' slot' done.ledger = .error fault := by
  obtain ⟨added, grown, for_slot⟩ := exists_applied run
  have same : claimsDuring slot' done.ledger.applied = claimsDuring slot' l.applied := by
    rw [grown, claimsDuring_append, claimsDuring_of_apart apart for_slot, List.append_nil]
  -- the second request is for its own slot, and there the claims of the first one do not count
  have stands := stands_session s l
  rcases allocate_eq (k := .outside slot' l.applied done.ledger.applied same) rfl trivial stands
      (stands_allocate stands run) ⟨[], [], by simp, by simp, rfl⟩ spec' with
    ⟨alone, after, ran, ran', result, new, new', left, right, since⟩ | ⟨fault, ran, ran'⟩
  · refine Or.inl ⟨alone, after, ran, ran', result, new.map Allocation.claim, ?_, ?_⟩
    · rw [left, List.map_append]
    · rw [right, List.map_append, since]
  · exact Or.inr ⟨fault, ran, ran'⟩

namespace Desk

variable {d : Desk} {context : Nat}

theorem respond_allocate_of_error {fault : Fault} (there : d.contexts[context]? = some l)
    (run : d.scheduler.allocate spec slot l = .error fault) :
    d.respond (.allocate context spec slot) = (.fault fault, d) := by
  unfold respond
  simp only [there, run]

theorem respond_allocate_of_ok (there : d.contexts[context]? = some l)
    (run : d.scheduler.allocate spec slot l = .ok done) :
    d.respond (.allocate context spec slot)
      = (.allocated done.result, ⟨done.scheduler, d.contexts.set context done.ledger⟩) := by
  unfold respond
  simp only [there, run]

theorem respond_allocate_of_none (absent : d.contexts[context]? = none) (spec : Specification)
    (slot : Slot) : d.respond (.allocate context spec slot) = (.noContext, d) := by
  unfold respond
  simp only [absent]

/-- The claims in force, context by context. -/
def claimed (d : Desk) : List (List (ResourceId × Slot × Usage)) :=
  d.contexts.map fun l => l.applied.map Allocation.claim

theorem claimed_set {m : Ledger} {new : List (ResourceId × Slot × Usage)}
    (there : d.contexts[context]? = some l)
    (grown : m.applied.map Allocation.claim = l.applied.map Allocation.claim ++ new)
    (s : Scheduler) :
    (⟨s, d.contexts.set context m⟩ : Desk).claimed = d.claimed.modify context (· ++ new) := by
  have before : d.claimed[context]? = some (l.applied.map Allocation.claim) := by
    rw [claimed, List.getElem?_map, there]
    rfl
  rw [List.modify_eq_set_getElem?, before]
  unfold claimed
  rw [List.map_set, grown]
  rfl

theorem claimed_of_nothing (d : Desk) (context : Nat) :
    d.claimed = d.claimed.modify context (· ++ []) := by
  simp only [List.append_nil]
  exact (List.modify_id context d.claimed).symm

theorem map_booked (d : Desk) (resource : ResourceId) :
    d.contexts.map (·.booked resource) = d.claimed.map (bookings resource) := by
  rw [claimed, List.map_map]
  exact List.map_congr_left fun l _ => l.booked_eq resource

/-- A request adds claims to its own context only. -/
theorem exists_claimed_respond (d : Desk) (context : Nat) (spec : Specification) (slot : Slot) :
    ∃ new, (d.respond (.allocate context spec slot)).2.claimed
      = d.claimed.modify context (· ++ new) := by
  cases there : d.contexts[context]? with
  | none =>
    rw [respond_allocate_of_none there]
    exact ⟨[], d.claimed_of_nothing context⟩
  | some l =>
    cases ran : d.scheduler.allocate spec slot l with
    | error fault =>
      rw [respond_allocate_of_error there ran]
      exact ⟨[], d.claimed_of_nothing context⟩
    | ok done =>
      -- only a context that exists is allocated in, and only its own ledger grows
      obtain ⟨added, grown, -⟩ := exists_applied ran
      rw [respond_allocate_of_ok there ran]
      exact ⟨added.map Allocation.claim, claimed_set there (by rw [grown, List.map_append]) _⟩

/-- After a request, one in a slot apart is answered as without it, and adds the same claims. -/
theorem respond_apart (apart : slot.overlaps slot' = false) (d : Desk) (context : Nat)
    (spec spec' : Specification) :
    let next := (d.respond (.allocate context spec slot)).2
    (next.respond (.allocate context spec' slot')).1 = (d.respond (.allocate context spec' slot')).1
      ∧ ∃ new, (d.respond (.allocate context spec' slot')).2.claimed
        = d.claimed.modify context (· ++ new)
        ∧ (next.respond (.allocate context spec' slot')).2.claimed
          = next.claimed.modify context (· ++ new) := by
  intro next
  obtain ⟨new, alone⟩ := d.exists_claimed_respond context spec' slot'
  cases there : d.contexts[context]? with
  | none =>
    have same : next = d := congrArg (·.2) (respond_allocate_of_none there spec slot)
    rw [same]
    exact ⟨rfl, new, alone, alone⟩
  | some l =>
    cases ran : d.scheduler.allocate spec slot l with
    | error fault =>
      have same : next = d := congrArg (·.2) (respond_allocate_of_error there ran)
      rw [same]
      exact ⟨rfl, new, alone, alone⟩
    | ok done =>
      have same : next = ⟨done.scheduler, d.contexts.set context done.ledger⟩ :=
        congrArg (·.2) (respond_allocate_of_ok there ran)
      have there' : next.contexts[context]? = some done.ledger := by
        rw [same]
        exact List.getElem?_set_self (List.getElem?_eq_some_iff.1 there).1
      have scheduler : next.scheduler = done.scheduler := by rw [same]
      -- the second request books the same with and without the first, or ends in the same fault
      rcases allocate_apart apart ran spec' with
        ⟨alone, after, first, second, result, new, left, right⟩ | ⟨fault, first, second⟩
      · rw [← scheduler] at second
        rw [respond_allocate_of_ok there first, respond_allocate_of_ok there' second, result]
        exact ⟨rfl, new, claimed_set there left _, claimed_set there' right _⟩
      · rw [← scheduler] at second
        rw [respond_allocate_of_error there first, respond_allocate_of_error there' second]
        exact ⟨rfl, [], d.claimed_of_nothing context, next.claimed_of_nothing context⟩

/-- Two requests on one context, for slots that do not overlap, are answered alike in either order.
Every context has the same bookings of each resource in the end. -/
theorem apart_requests_commute (apart : slot.overlaps slot' = false) (d : Desk) (context : Nat)
    (spec spec' : Specification) :
    let first := d.respond (.allocate context spec slot)
    let second := first.2.respond (.allocate context spec' slot')
    let second' := d.respond (.allocate context spec' slot')
    let first' := second'.2.respond (.allocate context spec slot)
    first'.1 = first.1 ∧ second'.1 = second.1
      ∧ ∀ resource, first'.2.contexts.map (·.booked resource) = second.2.contexts.map
        (·.booked resource) := by
  intro first second second' first'
  obtain ⟨answer, new', alone', after'⟩ := respond_apart apart d context spec spec'
  obtain ⟨answer', new, alone, after⟩ :=
    respond_apart ((slot.overlaps_comm slot').symm.trans apart) d context spec' spec
  refine ⟨answer', answer.symm, fun resource => ?_⟩
  -- each request adds the same claims in both orders, so only their places differ
  have order : second.2.claimed = d.claimed.modify context ((· ++ new') ∘ (· ++ new)) := by
    rw [← List.modify_modify_eq, ← alone]
    exact after'
  have order' : first'.2.claimed = d.claimed.modify context ((· ++ new) ∘ (· ++ new')) := by
    rw [← List.modify_modify_eq, ← alone']
    exact after
  rw [map_booked, map_booked, order, order']
  -- contexts other than the one asked stay as they are, so this goes context by context
  refine List.ext_getElem? fun i => ?_
  rw [List.getElem?_map, List.getElem?_map, List.getElem?_modify, List.getElem?_modify]
  cases d.claimed[i]? with
  | none => rfl
  | some claims =>
    have perm : ((claims ++ new') ++ new).Perm ((claims ++ new) ++ new') := by
      rw [List.append_assoc, List.append_assoc]
      exact List.perm_append_comm.append_left claims
    show some (bookings resource _) = some (bookings resource _)
    split
    · exact congrArg some (bookings_of_perm perm resource)
    · rfl

/-- Two meetings that touch, the second of which is a point. -/
theorem touching_meetings_commute :
    let d := opened (ofInventory Sample.inventory) "pass" ⟨0, 100, by decide⟩
    let first := d.respond (.allocate 0 Sample.meeting ⟨1, 5, by decide⟩)
    let second := first.2.respond (.allocate 0 Sample.meeting ⟨5, 5, by decide⟩)
    let second' := d.respond (.allocate 0 Sample.meeting ⟨5, 5, by decide⟩)
    let first' := second'.2.respond (.allocate 0 Sample.meeting ⟨1, 5, by decide⟩)
    first'.1 = first.1 ∧ second'.1 = second.1
      ∧ ∀ resource, first'.2.contexts.map (·.booked resource) = second.2.contexts.map
        (·.booked resource) :=
  apart_requests_commute (by decide) _ 0 Sample.meeting Sample.meeting

end Desk

end Scheduler

end Conference
