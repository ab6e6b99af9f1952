import Conference.Proofs.Parallel.Claims
import Conference.Proofs.Parallel.Scheduler
import Conference.Proofs.Pass.Run
import Conference.Proofs.Scheduler.Tree

/-!
# Schedulers stay on their ground

One allocation leaves to the next the ground on which it has worked: the inventory, the resources in
their places and what each of them shows. All that it adds to the ledger is for the slot that it was
asked for. So what the next allocation on the ledger finds is settled by the ground and by these
additions.
-/

namespace Conference.Scheduler

variable {G : Ground} {slot : Slot} {s t : Scheduler} {spec : Specification} {l m : Ledger}
  {done : Allocated}

theorem stands_session (s : Scheduler) (l : Ledger) :
    (s.session l).Stands (s.session l).ground [] :=
  Session.stands_ground _

/-- Where the registry shows the inventory as it is, the snapshots that happen to be there do not
matter. -/
theorem stands_of_reflects (reflects : s.registry.Reflects s.inventory) (l : Ledger) :
    (s.session l).Stands ⟨s.inventory, s.registry.roll, l.workingInterval,
      fun id => Registry.readSnapshot s.inventory id l.workingInterval⟩ [] := by
  have current := current_session reflects l
  refine ⟨rfl, Registry.roll_setWorkingInterval _ _, rfl, ?_, fun _ mem => nomatch mem⟩
  exact fun id => Registry.shown_of_reflects current.reflects l.workingInterval id

/-- Sessions that allocate have made no nodes and no reports, so their ledgers are all that can
differ. -/
theorem session_alike {k : Likeness slot} (exact_keys : k.ahead = 0)
    (left : (s.session l).Stands G []) (right : (t.session m).Stands G [])
    (ledgers : k.Ledgers l m) :
    (s.session l).Alike G k [] (t.session m) where
  left := left
  right := right
  ledger := ledgers
  reservations := by
    rw [exact_keys, ReservationForest.shift_zero]
    rfl
  account := fun _ => rfl
  progress := ReservationForest.inProgress_empty
  slots := fun _ he => nomatch he

/-- The session that an allocation comes to stands where the allocation began, and has nodes for one
slot. -/
theorem exists_standing (stands : (s.session l).Stands G [])
    (run : s.allocate spec slot l = .ok done) :
    ∃ after, Reaches (s.session l) after done.result ∧ done.ledger = after.ledger
      ∧ done.scheduler = { s with registry := after.registry } ∧ after.Stands G []
      ∧ ∀ e ∈ after.reservations.entries, e.node.slot = slot := by
  have ensured :=
    Job.perform_ensures (Work.orderly_job (Work.ofSpecification spec) slot) (s.session l)
  -- what holds of both of two alike runs holds of a run beside itself
  have itself : (s.session l).Alike G (.claims slot 0 True) [] (s.session l) :=
    session_alike rfl stands stands rfl
  have steady : ((Work.ofSpecification spec).job slot).Steady (fun _ => True) G
      (.claims slot 0 True) :=
    Work.job_steady rfl trivial trivial (Work.ofSpecification spec)
  unfold allocate at run
  rcases Job.perform_pairs steady itself
    with ⟨⟨r, job⟩, u, ⟨r', _⟩, v, left, -, met⟩ | ⟨fault, -, left, -⟩
  · rw [left] at run
    obtain ⟨reached, ledger, scheduler⟩ := reaches_of_conclude (ensured _ _ left) run
    refine ⟨u, reached, ledger, scheduler, ?_⟩
    cases r with
    | ok key =>
      cases r' with
      | error _ => exact met.elim
      | ok _ => exact ⟨met.2.left, met.2.slots⟩
    | error failure =>
      cases r' with
      | ok _ => exact met.elim
      | error _ => exact ⟨met.2.left, met.2.slots⟩
  · rw [left] at run
    cases run

/-- The next allocation on the ledger finds the same ground. -/
theorem stands_allocate (stands : (s.session l).Stands G [])
    (run : s.allocate spec slot l = .ok done) :
    (done.scheduler.session done.ledger).Stands G [] := by
  obtain ⟨after, -, ledger, scheduler, there, -⟩ := exists_standing stands run
  rw [ledger, scheduler]
  refine there.setWorkingInterval.congr ?_ ?_ rfl
  · show after.registry.setWorkingInterval after.ledger.workingInterval = _
    rw [there.interval]
  · exact stands.inventory.trans there.inventory.symm

/-- The scheduler has the same inventory and the same resources in the same places. -/
structure Retains (s t : Scheduler) : Prop where
  inventory : t.inventory = s.inventory
  roll : t.registry.roll = s.registry.roll

theorem Retains.refl (s : Scheduler) : s.Retains s := ⟨rfl, rfl⟩

theorem Retains.trans {u : Scheduler} (h : s.Retains t) (h' : t.Retains u) : s.Retains u :=
  ⟨h'.inventory.trans h.inventory, h'.roll.trans h.roll⟩

theorem retains_openPass (s : Scheduler) (pass : String) (interval : Slot) :
    s.Retains (s.openPass pass interval).2 where
  inventory := rfl
  roll := by
    show (s.registry.setWorkingInterval interval).clearSnapshots.roll = _
    rw [Registry.roll_clearSnapshots, Registry.roll_setWorkingInterval]

theorem retains_allocate (run : s.allocate spec slot l = .ok done) : s.Retains done.scheduler := by
  obtain ⟨after, -, -, scheduler, stands, -⟩ := exists_standing (stands_session s l) run
  rw [scheduler]
  exact ⟨rfl, stands.roll.trans (Registry.roll_setWorkingInterval _ _)⟩

/-- What an allocation adds to its ledger is for its slot. -/
theorem exists_applied (run : s.allocate spec slot l = .ok done) :
    ∃ added, done.ledger.applied = l.applied ++ added ∧ ∀ a ∈ added, a.slot = slot := by
  obtain ⟨after, reached, ledger, -, -, slots⟩ := exists_standing (stands_session s l) run
  obtain ⟨made, builds⟩ := reached.exists_builds
  obtain ⟨new, added, grows⟩ := builds.grows ReservationForest.inProgress_empty
  refine ⟨added, ?_, fun a mem => ?_⟩
  · rw [ledger, grows.ledger]
    rfl
  · -- it is the claim of a node that has been made
    have claim : a.claim ∈ new.filterMap (·.node.claim?) := by
      rw [← grows.claims]
      exact List.mem_map_of_mem mem
    obtain ⟨e, he, claimed⟩ := List.mem_filterMap.1 claim
    obtain ⟨c, -, same⟩ := Option.map_eq_some_iff.1 claimed
    have entries : after.reservations.entries = new := grows.entries_eq rfl
    have at_ : e.node.slot = slot := slots e (by rwa [entries])
    exact (congrArg (·.2.1) same).symm.trans at_

/-- An allocation that is refused adds nothing. -/
theorem applied_of_refused {refusal : Refusal} (run : s.allocate spec slot l = .ok done)
    (refused : done.result = .error refusal) : done.ledger.applied = l.applied := by
  obtain ⟨after, reached, ledger, -⟩ := exists_reaches run
  rw [refused] at reached
  obtain ⟨same, -, -⟩ := Session.Builds.eq_of_nil reached ReservationForest.inProgress_empty
  rw [ledger, same]
  rfl

/-- Allocations of one request from ledgers that differ as a likeness with the same keys and reports
allows: equal results, or the same fault. -/
theorem allocate_eq {k : Likeness slot} (exact_keys : k.ahead = 0) (exact_reports : k.Reports)
    (left : (s.session l).Stands G []) (right : (t.session m).Stands G []) (ledgers : k.Ledgers l m)
    (spec : Specification) :
    (∃ done done', s.allocate spec slot l = .ok done ∧ t.allocate spec slot m = .ok done'
        ∧ done'.result = done.result ∧ k.Ledgers done.ledger done'.ledger)
      ∨ ∃ fault, s.allocate spec slot l = .error fault ∧ t.allocate spec slot m = .error fault := by
  have alike := session_alike exact_keys left right ledgers
  have steady : ((Work.ofSpecification spec).job slot).Steady (fun _ => True) G k :=
    Work.job_steady exact_keys exact_reports trivial (Work.ofSpecification spec)
  rcases allocate_alike steady alike with ⟨done, done', ran, ran', same⟩ | ⟨fault, -, ran, ran'⟩
  · exact Or.inl ⟨done, done', ran, ran', same.result.eq exact_keys exact_reports, same.ledger⟩
  · exact Or.inr ⟨fault, ran, ran'⟩

/-- The refusal that an allocation has come to, if it has not succeeded. -/
def Allocated.refusal? (done : Allocated) : Option Refusal :=
  match done.result with
  | .ok _ => none
  | .error refusal => some refusal

theorem Allocated.refusal?_congr {done' : Allocated} (same : done'.result = done.result) :
    done'.refusal? = done.refusal? := by
  unfold refusal?
  rw [same]

/-- A check is an allocation of which only the refusal is kept. -/
theorem check_eq (s : Scheduler) (spec : Specification) (slot : Slot) (l : Ledger) :
    s.check spec slot l = (s.allocate spec slot l).map fun done =>
      (done.refusal?, done.scheduler) := by
  unfold check Allocated.refusal?
  cases s.allocate spec slot l with
  | error fault => rfl
  | ok done =>
    simp only [bind, Except.bind, Except.map]
    cases done.result <;> rfl

/-- After a check an allocation on the same ledger finds the same ground. -/
theorem stands_check (stands : (s.session l).Stands G [])
    (run : s.allocate spec slot l = .ok done) :
    (done.scheduler.session l).Stands G [] := by
  have after := stands_allocate stands run
  have interval : l.workingInterval = done.ledger.workingInterval :=
    stands.interval.trans after.interval.symm
  refine after.congr ?_ rfl interval
  show done.scheduler.registry.setWorkingInterval l.workingInterval = _
  rw [interval]
  rfl

/-! ## Ledgers with the same claims on the same ground -/

/-- Allocations on the two ledgers find the same ground and the same claims. -/
structure Even (G : Ground) (s : Scheduler) (l : Ledger) (t : Scheduler) (m : Ledger) : Prop where
  left : (s.session l).Stands G []
  right : (t.session m).Stands G []
  claims : m.applied.map Allocation.claim = l.applied.map Allocation.claim

theorem even_refl (s : Scheduler) (l : Ledger) : Even (s.session l).ground s l s l :=
  ⟨stands_session s l, stands_session s l, rfl⟩

theorem Even.allocate (h : Even G s l t m) (spec : Specification) (slot : Slot) :
    (∃ done done', s.allocate spec slot l = .ok done ∧ t.allocate spec slot m = .ok done'
        ∧ done'.result = done.result
        ∧ Even G done.scheduler done.ledger done'.scheduler done'.ledger
        ∧ Even G done.scheduler l done'.scheduler m)
      ∨ ∃ fault, s.allocate spec slot l = .error fault ∧ t.allocate spec slot m = .error fault := by
  rcases allocate_eq (k := .claims slot 0 True) rfl trivial h.left h.right h.claims spec with
    ⟨done, done', ran, ran', same, claims⟩ | ⟨fault, ran, ran'⟩
  · exact Or.inl ⟨done, done', ran, ran', same,
      ⟨stands_allocate h.left ran, stands_allocate h.right ran', claims⟩,
      ⟨stands_check h.left ran, stands_check h.right ran', h.claims⟩⟩
  · exact Or.inr ⟨fault, ran, ran'⟩

/-- An allocation that is refused on one of the ledgers does not take it off the other one. -/
theorem Even.refused {refusal : Refusal} (h : Even G s l t m)
    (run : s.allocate spec slot l = .ok done) (refused : done.result = .error refusal) :
    Even G done.scheduler done.ledger t m := by
  refine ⟨stands_allocate h.left run, h.right, ?_⟩
  rw [applied_of_refused run refused]
  exact h.claims

end Conference.Scheduler
