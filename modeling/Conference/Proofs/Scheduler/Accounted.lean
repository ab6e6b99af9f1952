import Conference.Proofs.Scheduler.Explained
import Conference.Proofs.Told.Candidates

/-!
# Refused searches account for all resources

When a search for any resource that will do has come to nothing, the reports of the refusal say of
each resource that has what was asked for why it was not taken. This goes for resources that dropped
out at the survey as well as for those that were tried.
-/

namespace Conference

variable {slot : Slot} {s : Session} {g : Registry}

namespace Specification

/-- The resource has what is asked for, if that is a room, a recording or an alias of its own. -/
def isEligible : Specification → Resource → Bool
  | room spec, r => spec.isUsable r
  | recording spec, r => spec.isUsable r
  | dialAlias spec, r => spec.isUsable none r
  | resource _, _ | compartment _, _ => false

theorem work_accounts {spec : Specification} (free : spec.IsFree) (slot : Slot) (sound : s.Scoped)
    (under : s.Under g) :
    (spec.work slot).Accounts s (s.registry.select spec.isEligible) := by
  cases spec with
  | room spec => exact spec.allocate_accounts free sound
  | recording spec => exact spec.allocate_accounts free sound
  | dialAlias spec => exact spec.allocate_accounts free none sound under
  | resource id => exact free.elim
  | compartment participants => exact free.elim

end Specification

/-- What the work of a job accounts for, the job does. -/
theorem Job.perform_accounts {job : Job} {ids : List ResourceId}
    (work : (job.work job.slot).Accounts (s.enter job.title) ids) :
    job.perform.Ensures s fun r t => Attempt.Ends (fun _ _ => True)
      (fun e t => e.Cites t (fun report => ¬ report.EndsSearch)
        ∨ ∀ id ∈ ids, t.reports.Accounts id) r.1 t := by
  refine perform_rule ((attempt_rule (fun _ => Or.inl (.fail _ rfl id)) work).mono
    (fun _ _ _ => trivial) ?_)
  rintro e t (cites | accounts)
  · exact Or.inl (cites.later (by simp))
  · exact Or.inr fun id mem => (accounts id mem).of_extends t.extends_leaveError

namespace Scheduler

/-- A free search that has come to nothing leaves an error about each resource that is eligible for
it, and in the subtree of that one an error that stands for a kind of failure. -/
theorem no_candidate_is_dropped {s : Scheduler} (arises : s.Arises) {spec : Specification}
    (free : spec.IsFree) {slot : Slot} {ledger : Ledger} {done : Allocated} {refusal : Refusal}
    (run : s.allocate spec slot ledger = .ok done) (refused : done.result = .error refusal)
    {report : Report} (reason : refusal.reason? = some report) (searched : report.EndsSearch)
    {r : Resource} (registered : s.registry.get? r.id = some r) (eligible : spec.isEligible r) :
    ∃ about e, refusal.reports.get? about = some e ∧ e.isError ∧ e.report.resource? = some r.id
      ∧ ∃ below ∈ refusal.reports.subtree about, ∃ d,
      refusal.reports.get? below = some d ∧ d.isError
        ∧ d.report.failureKind?.isSome := by
  let work := Work.ofSpecification spec
  have sound := s.scoped_session ledger
  have entered : ((s.session ledger).enter (work.job slot).title).Scoped :=
    Session.scoped_openReport sound _
  have under :=
    (arises.under_session ledger).of_quiet ((s.session ledger).quiet_enter (work.job slot).title)
  have accounts : ((work.job slot).work (work.job slot).slot).Accounts
      ((s.session ledger).enter (work.job slot).title)
      (s.registry.select spec.isEligible) := by
    rw [Work.slot_job, ← select_session s ledger]
    exact Specification.work_accounts free slot entered under
  have performed :=
    ((Job.perform_files (work.tells slot) sound).and (Job.perform_accounts accounts)).mono
      fun _ _ both => both.1.and both.2
  obtain ⟨e, t, ⟨⟨files, -⟩, cites | accounted⟩, rfl⟩ := exists_failure run refused performed
  · -- there would have been nothing to search among
    obtain ⟨d, found, -, never⟩ := cites.exists_entry
    have same : (t.reports.get? e.cause).map (·.report) = some report := reason
    rw [found] at same
    exact absurd searched (Option.some.inj same ▸ never)
  · have mem : r.id ∈ s.registry.select spec.isEligible :=
      (Registry.mem_select arises.distinct).2 ⟨r, registered, eligible⟩
    obtain ⟨about, below, above, ⟨d, found, error, named⟩, d', found', error', kind⟩ :=
      accounted r.id mem
    have aged : t.reports.Aged := files.tells.aged sound ReportForest.aged_empty
    have inside := above.mem_subtree aged (ReportForest.lt_size_of_get? found')
    exact ⟨about, d, found, error, named, below, inside, d', found', error', kind⟩

/-- Asked for on a number that no device hands out, a meeting is refused in the hall, which has no
numbers, and in the annex, the numbers of which are others. -/
theorem no_branch_is_dropped :
    let s := ofInventory Sample.branches
    let ledger := Ledger.empty "pass" ⟨0, 100, by decide⟩
    let spec : Specification := .room ⟨2, .empty, none, [⟨.empty, .empty, some "999", none⟩]⟩
    ∃ done refusal, s.allocate spec ⟨1, 5, by decide⟩ ledger = .ok done
      ∧ done.result = .error refusal
      ∧ ∀ r ∈ [Sample.hall, Sample.annex], ∃ about e,
        refusal.reports.get? about = some e ∧ e.isError
        ∧ e.report.resource? = some r.id ∧ ∃ below ∈ refusal.reports.subtree about, ∃ d,
          refusal.reports.get? below = some d ∧ d.isError ∧ d.report.failureKind?.isSome := by
  intro s ledger spec
  have refuses : s.RefusesFor spec ⟨1, 5, by decide⟩ ledger
      (.noAvailableResource "a room for 2 participants (any technology)") := by decide +kernel
  obtain ⟨done, refusal, run, refused, reason⟩ := refuses
  refine ⟨done, refusal, run, refused, fun r mem => ?_⟩
  -- both rooms are registered and could host the meeting, but for the alias
  have registered : ∀ r ∈ [Sample.hall, Sample.annex], s.registry.get? r.id = some r
      ∧ spec.isEligible r := by
    decide +kernel
  obtain ⟨found, eligible⟩ := registered r mem
  have free : spec.IsFree := rfl
  exact no_candidate_is_dropped (.ofInventory Sample.branches) free run refused reason
    trivial found eligible

end Scheduler

end Conference
