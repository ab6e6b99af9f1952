import Conference.Proofs.Causes.Compartment
import Conference.Proofs.Sample
import Conference.Proofs.Scheduler.Connectivity
import Conference.Proofs.Told.Compartment

/-!
# Refusals are explained

A refusal comes with a tree of reports, at the root of which stands the report of the job that has
been refused. On the way from its cause up to there are errors only, and the cause stands itself for
the kind of the failure, however deep the failure has come up. This holds on whatever ledger and
with whatever history of the scheduler.
-/

namespace Conference

/-- The refusal of a job with the given title is well explained. -/
structure Refusal.IsExplained (r : Refusal) (title : Report) : Prop where
  /-- There is one root, the report of the job. -/
  roots : r.reports.roots = [0]
  title : ∃ e, r.reports.get? 0 = some e ∧ e.report = title
  /-- The cause belongs to the tree. -/
  mem_subtree : r.cause ∈ r.reports.subtree 0
  root_above : r.reports.Above 0 r.cause
  errors : ∀ id, r.reports.Above id r.cause → ∃ e, r.reports.get? id = some e ∧ e.isError
  /-- The cause says by itself what kind of failure it is. -/
  reason : ∃ report, r.reason? = some report ∧ report.failureKind? = some r.kind
  failureKind : r.reports.failureKind? r.cause = some r.kind

namespace Job

variable {job : Job} {s : Session}

/-- A job that fails has all errors in place, and cites a report that stands for the kind of the
failure. -/
theorem perform_explained (tells : (job.work job.slot).Tells)
    (explains : (job.work job.slot).Explains fun _ => True) (sound : s.Scoped) :
    job.perform.Ensures s fun r t => Attempt.Ends (fun _ t => s.Files t job.title ∧ s.log <+: t.log)
      (fun e t => (s.Files t job.title ∧ e.Told s t) ∧ s.log <+: t.log
        ∧ e.Cites t fun _ => True) r.1 t :=
  ((perform_files tells sound).and (perform_cites (fun _ => trivial) (explains _))).mono
    fun _ _ both => both.1.and both.2

end Job

namespace Scheduler

theorem scoped_session (s : Scheduler) (l : Ledger) : (s.session l).Scoped :=
  fun _ never => nomatch never

/-- Where nothing has been reported before, all errors in place and a cause that is classified are
an explanation. -/
theorem isExplained_of_files {s : Scheduler} {l : Ledger} {t : Session} {title : Report}
    {e : Failure} (files : (s.session l).Files t title) (told : e.Told (s.session l) t)
    (cites : e.Cites t fun _ => True) :
    Refusal.IsExplained ⟨e.kind, t.reports, e.cause⟩ title := by
  have aged : t.reports.Aged := files.tells.aged (s.scoped_session l) ReportForest.aged_empty
  have blamed : t.reports.Blamed none e.cause := told.2
  obtain ⟨own, found, title_eq, top⟩ := files.own
  have roots : t.reports.roots = [0] :=
    files.tells.reports.withParent ⟨own, found, top⟩ files.below nofun
  obtain ⟨root, r, above, rooted, alone⟩ := blamed.exists_root
  -- the reports before were none, so the title is the first report and the only root
  obtain rfl : root = 0 := by
    have mem : root ∈ t.reports.roots := ReportForest.mem_withParent.2 ⟨r, rooted, alone⟩
    rw [roots] at mem
    exact List.mem_singleton.1 mem
  obtain ⟨d, there, kind, -⟩ := cites.exists_entry
  exact
    { roots := roots
      title := ⟨own, found, title_eq⟩
      mem_subtree := above.mem_subtree aged (ReportForest.lt_size_of_get? there)
      root_above := above
      errors := fun id upper => (blamed.of_above upper).exists_error
      reason := ⟨d.report, congrArg (Option.map ReportForest.Entry.report) there, kind⟩
      failureKind := ReportForest.failureKind?_eq there kind }

/-- Each failure of a job, wherever it is performed within an allocation, cites a report that stands
itself for the kind of the failure. If an allocation is refused, the cause is a report in the tree
of its job, and all that is above the cause is an error. -/
theorem refusal_is_explained :
    (∀ {s t : Session} (work : Work) (slot : Slot) {e : Failure} {after : Job}, s.Scoped →
      (work.job slot).perform s = .ok ((.error e, after), t) →
      e.Told s t ∧ e.Cites t fun _ => True)
    ∧ ∀ (s : Scheduler) (spec : Specification) (slot : Slot) (l : Ledger)
      {done : Allocated} {refusal : Refusal},
      s.allocate spec slot l = .ok done → done.result = .error refusal →
      refusal.IsExplained ((Work.ofSpecification spec).job slot).title := by
  constructor
  · intro s t work slot e after sound run
    obtain ⟨⟨-, told⟩, -, cites⟩ :=
      Job.perform_explained (work.tells slot) (work.explains slot) sound _ _ run
    exact ⟨told, cites⟩
  · intro s spec slot l done refusal run refused
    let work := Work.ofSpecification spec
    have explained :=
      Job.perform_explained (work.tells slot) (work.explains slot) (s.scoped_session l)
    -- a refusal carries the failure of the performance it comes from
    obtain ⟨e, t, ⟨⟨files, told⟩, -, cites⟩, rfl⟩ := exists_failure run refused explained
    exact isExplained_of_files files told cites

/-- The studio and more who dial in than the gateway can bring together: the cause is the refusal of
the room, three reports below that of the compartment. -/
theorem crowded_gateway_is_explained :
    let s := ofInventory Sample.exchange
    let l := Ledger.empty "pass" ⟨0, 100, by decide⟩
    let slot : Slot := ⟨1, 5, by decide⟩
    let participants : List Participant :=
      [.existing Sample.studio.id, .external (.ofList [.sip]) 20]
    (∃ e after t, ((Work.compartment participants).job slot).perform (s.session l)
      = .ok ((.error e, after), t)
        ∧ e.Told (s.session l) t ∧ e.Cites t fun _ => True)
      ∧ ∃ done refusal, s.allocate (.compartment participants) slot l = .ok done
      ∧ done.result = .error refusal
        ∧ refusal.IsExplained (.allocatingCompartment 2) := by
  intro s l slot participants
  -- too many for the gateway, so the job fails
  have fails : ((Work.compartment participants).job slot).perform.Attains (s.session l) fun r _ =>
      r.1.toOption = none := by decide +kernel
  obtain ⟨⟨r, after⟩, t, run, failed⟩ := fails
  cases r with
  | ok key => cases failed
  | error e =>
    refine ⟨⟨e, after, t, run, refusal_is_explained.1 (.compartment participants) slot
      (s.scoped_session l) run⟩, ?_⟩
    have refuses : s.allocate (.compartment participants) slot l
        = s.conclude (.error e) t := by
      unfold allocate
      rw [show Work.ofSpecification (.compartment participants)
        = .compartment participants from rfl, run]
      rfl
    exact ⟨_, _, refuses, rfl,
      refusal_is_explained.2 s (.compartment participants) slot l refuses rfl⟩

end Scheduler

end Conference
