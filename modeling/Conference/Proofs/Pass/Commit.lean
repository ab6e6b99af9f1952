import Conference.Proofs.Inventory.Commit
import Conference.Proofs.Scheduler.History
import Conference.Proofs.Scheduler.Tree

/-!
# Committing a pass

What is in force at the end of a pass is what its trees claim: a request that succeeds adds the
claims of its tree, and a request that fails adds nothing. So a commit of the trees leaves in the
inventory what the ledger holds, although it never looks at the ledger.
-/

namespace Conference

namespace Scheduler

variable {s : Scheduler} {spec : Specification} {slot : Slot} {l : Ledger} {done : Allocated}

/-- What an allocation that succeeds adds to its ledger is claimed by its tree. -/
theorem exists_applied_of_granted {tree : ReservationForest}
    (run : s.allocate spec slot l = .ok done) (success : done.result = .ok tree) :
    ∃ added, done.ledger.applied = l.applied ++ added
      ∧ (added.map Allocation.claim).Perm (Inventory.claimsOf tree) := by
  obtain ⟨after, reached, left, -⟩ := exists_reaches run
  rw [success] at reached
  obtain ⟨root, keys, builds, rfl⟩ := reached
  obtain ⟨new, added, grows⟩ := builds.grows ReservationForest.inProgress_empty
  refine ⟨added, ?_, grows.claims_perm rfl⟩
  rw [left, grows.ledger]
  rfl

end Scheduler

namespace Pass

theorem trees_cons (o : Outcome) (outcomes : List Outcome) :
    trees (o :: outcomes) = trees [o] ++ trees outcomes := List.filterMap_append (l := [o])

/-- One request adds what its tree claims, if it has one. -/
theorem exists_applied_of_step {state next : State} {request : Request}
    {result : Except Refusal ReservationForest} (run : step state request = .ok (result, next)) :
    ∃ added, next.ledger.applied = state.ledger.applied ++ added
      ∧ (added.map Allocation.claim).Perm
        ((trees [⟨request, result, 0⟩]).flatMap Inventory.claimsOf) := by
  unfold step at run
  cases allocated : state.scheduler.allocate request.specification request.slot state.ledger with
  | error fault =>
    rw [allocated] at run
    cases run
  | ok done =>
    rw [allocated] at run
    cases run
    show ∃ added, done.ledger.applied = _ ∧ _
    cases result : done.result with
    | ok tree =>
      obtain ⟨added, applied, perm⟩ := Scheduler.exists_applied_of_granted allocated result
      exact ⟨added, applied, perm.trans (.of_eq (List.flatMap_singleton _ _).symm)⟩
    | error refusal =>
      -- a refused request applies nothing
      refine ⟨[], ?_, .nil⟩
      rw [Scheduler.applied_of_refused allocated result, List.append_nil]

/-- By induction on the requests: a pass adds what its trees claim. -/
theorem exists_applied_of_run (requests : List Request) :
    ∀ {state last : State} {outcomes : List Outcome}, Pass.run state requests
      = .ok (outcomes, last) →
      ∃ added, last.ledger.applied = state.ledger.applied ++ added
        ∧ (added.map Allocation.claim).Perm ((trees outcomes).flatMap Inventory.claimsOf) := by
  induction requests with
  | nil =>
    intro state last outcomes run
    cases run
    exact ⟨[], (List.append_nil _).symm, .nil⟩
  | cons request requests ih =>
    intro state last outcomes run
    obtain ⟨result, next, others, first, rest, rfl⟩ := exists_of_run_cons run
    obtain ⟨added, applied, perm⟩ := exists_applied_of_step first
    obtain ⟨added', applied', perm'⟩ := ih rest
    refine ⟨added ++ added', ?_, ?_⟩
    · rw [applied', applied, List.append_assoc]
    · -- a refused request adds no tree, so the claims are those of the trees so far
      rw [trees_cons, List.flatMap_append, List.map_append]
      exact perm.append perm'

/-! ## The commit -/

theorem commitAll_eq (trees : List ReservationForest) : ∀ inv : Inventory,
    commitAll inv trees = inv.changeAll (trees.map .commit) := by
  induction trees with
  | nil => exact fun _ => rfl
  | cons tree trees ih =>
    intro inv
    rw [commitAll, ih]
    rfl

theorem persists_commitAll (trees : List ReservationForest) : ∀ inv : Inventory,
    inv.Persists (commitAll inv trees).2 (trees.flatMap Inventory.claimsOf)
      (commitAll inv trees).1 := by
  induction trees with
  | nil => exact fun inv => .refl inv
  | cons tree trees ih => exact fun inv => (inv.persists_commit tree).trans (ih _)

/-- A commit of the trees of a pass leaves the committed allocations that were there, and behind
them allocations that claim just what those in force in the pass do. Each commit puts the claims of
its tree there in pre-order, under one identifier each. No identifier, nor its text, is given out
twice, whatever is done to the inventory before and after. -/
theorem commit_keeps_claims {s : Scheduler} {pass : String} {interval : Slot}
    {requests : List Request} {outcomes : List Outcome} {last : State}
    (run : Pass.run (opened s pass interval) requests = .ok (outcomes, last)) :
    (∃ appended, (commitAll last.scheduler.inventory (trees outcomes)).2.allocations
        = s.inventory.allocations ++ appended
      ∧ (appended.map Allocation.claim).Perm (last.ledger.applied.map Allocation.claim)
      ∧ appended.map (·.id)
        = (commitAll last.scheduler.inventory (trees outcomes)).1.map fun id => ⟨id.render⟩)
    ∧ (∀ (inv : Inventory) (tree : ReservationForest),
        (∃ appended, (inv.commit tree).2.allocations = inv.allocations ++ appended
          ∧ appended.map Allocation.claim = Inventory.claimsOf tree
          ∧ appended.map (·.id) = (inv.commit tree).1.map fun id => ⟨id.render⟩)
        ∧ ∀ id ∈ (inv.commit tree).1, id.domain = inv.domain ∧ id.kind = .reservation)
    ∧ commitAll last.scheduler.inventory (trees outcomes)
        = last.scheduler.inventory.changeAll ((trees outcomes).map .commit)
    ∧ ∀ (inv : Inventory) (changes : List Inventory.Change),
        (inv.changeAll changes).1.Nodup ∧ ((inv.changeAll changes).1.map (·.render)).Nodup := by
  have same : last.scheduler.inventory = s.inventory :=
    (Scheduler.retains_run requests run).inventory
  refine ⟨?_, ?_, commitAll_eq _ _, ?_⟩
  · -- what the pass has applied is what its trees claim, and each claim is recorded
    obtain ⟨added, applied, claimed⟩ := exists_applied_of_run requests run
    obtain ⟨appended, allocations, claims, ids⟩ :=
      (persists_commitAll (trees outcomes) last.scheduler.inventory).allocations
    refine ⟨appended, ?_, ?_, ids⟩
    · rw [allocations, same]
    · rw [claims, applied]
      exact claimed.symm
  · intro inv tree
    have persists := inv.persists_commit tree
    exact ⟨persists.allocations, fun id mem => persists.issues.mem mem⟩
  · intro inv changes
    have texts := (inv.issues_changeAll changes).render_nodup
    exact ⟨.of_map _ texts, texts⟩

/-- Two of the three meetings of the sample are committed, with two claims each. -/
theorem sample_commit_keeps_claims :
    let start := opened (.ofInventory Sample.inventory) "pass" ⟨0, 100, by decide⟩
    ∃ outcomes last, Pass.run start Sample.requests = .ok (outcomes, last)
      ∧ (commitAll last.scheduler.inventory (trees outcomes)).1.length = 4
      ∧ ∃ appended, (commitAll last.scheduler.inventory (trees outcomes)).2.allocations
          = Sample.inventory.allocations ++ appended
        ∧ (appended.map Allocation.claim).Perm (last.ledger.applied.map Allocation.claim)
        ∧ appended.map (·.id)
          = (commitAll last.scheduler.inventory (trees outcomes)).1.map fun id => ⟨id.render⟩ := by
  intro start
  have four : ((Pass.run start Sample.requests).toOption.map fun p =>
      (commitAll p.2.scheduler.inventory (trees p.1)).1.length) = some 4 := by decide +kernel
  cases run : Pass.run start Sample.requests with
  | error fault =>
    rw [run] at four
    cases four
  | ok p =>
    rw [run] at four
    exact ⟨p.1, p.2, rfl, Option.some.inj four, (commit_keeps_claims run).1⟩

end Pass

end Conference
