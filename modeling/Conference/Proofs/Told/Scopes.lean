import Conference.Proofs.Sample
import Conference.Proofs.Session.Attains
import Conference.Proofs.Told.Compartment

/-!
# Scopes are nested

However a job ends, it has added one report to the one that was open when it started, and all else
that has been reported is below that report. What was there before is as it was, and the same scopes
are open again. This needs no more of the session than that its reports are well filed, which they
are in any session: no operation files a report under a younger one, or leaves one open that does
not exist.
-/

namespace Conference

namespace Session

variable {s t : Session} {title : Report} {failed : Bool} {id : Nat}

/-! ## Reports that are well filed -/

/-- The reports that are open exist, and each report is younger than its parent. -/
structure WellFiled (s : Session) : Prop where
  opened : s.Scoped
  aged : s.reports.Aged

namespace WellFiled

/-- A session begins with no report, open or closed. -/
theorem start (ledger : Ledger) (registry : Registry) (inventory : Inventory) :
    (Session.start ledger registry inventory).WellFiled where
  opened := fun _ never => nomatch never
  aged := ReportForest.aged_empty

/-- Only the reports and which of them are open are looked at. -/
theorem elsewhere (filed : s.WellFiled) (reports : t.reports = s.reports)
    (openReports : t.openReports = s.openReports) :
    t.WellFiled := by
  constructor
  · intro id mem
    rw [reports]
    exact filed.opened id (openReports ▸ mem)
  · rw [reports]
    exact filed.aged

/-- What a task tells is filed under the open reports. -/
theorem tells (filed : s.WellFiled) (tells : s.Tells t) : t.WellFiled where
  opened := tells.stays_scoped filed.opened
  aged := tells.aged filed.opened filed.aged

theorem openReport (filed : s.WellFiled) (report : Report) : (s.openReport report).WellFiled where
  opened := scoped_openReport filed.opened report
  aged := (filed.tells (tells_addReport filed.opened report)).aged

/-- Scopes may be closed. -/
theorem close (filed : s.WellFiled) {ids : List Nat} (fewer : ids ⊆ s.openReports) :
    { s with openReports := ids }.WellFiled where
  opened := fun id mem => filed.opened id (fewer mem)
  aged := filed.aged

/-- Closing a report leaves fewer open ones. -/
theorem closeReport (filed : s.WellFiled) : s.closeReport.WellFiled :=
  filed.close fun _ mem => List.mem_of_mem_tail mem

/-- A mark changes no report's place. -/
theorem markError (filed : s.WellFiled) (id : Nat) :
    { s with reports := s.reports.markError id }.WellFiled where
  opened := by
    intro other mem
    rw [ReportForest.size_markError]
    exact filed.opened other mem
  aged := ReportForest.Aged.markError filed.aged id

/-- The last open report is marked and closed, and nothing happens where none is open. -/
theorem closeError (filed : s.WellFiled) : s.closeError.WellFiled := by
  cases current : s.openReports with
  | nil =>
    unfold Session.closeError
    rw [current]
    exact filed
  | cons id rest =>
    rw [closeError_of_cons current]
    exact (filed.markError id).close (current ▸ List.subset_cons_self id rest)

/-- Leaving a scope closes what the scope has opened. -/
theorem leave (filed : s.WellFiled) : s.leave.WellFiled :=
  (filed.close (List.drop_subset s.scope s.openReports)).elsewhere rfl rfl

/-- Leaving it after a failure marks these reports first, one by one. -/
theorem leaveError (filed : s.WellFiled) : s.leaveError.WellFiled := by
  let marks := s.openReports.take s.scope
  have marked : { s with reports := marks.foldl ReportForest.markError s.reports }.WellFiled :=
    List.foldlRecOn (motive := fun f => { s with reports := f }.WellFiled) marks
      ReportForest.markError filed fun f before id _ => before.markError id
  exact (marked.close (List.drop_subset s.scope s.openReports)).elsewhere rfl rfl

/-- A report may be filed under any other one. -/
theorem file (filed : s.WellFiled) {e : ReportForest.Entry}
    (parent : ∀ p ∈ e.parent, p < s.reports.size) :
    { s with reports := ⟨s.reports.entries ++ [e]⟩ }.WellFiled := by
  have added := s.reports.adds_concat (e := e) rfl
  exact ⟨fun id mem => Nat.lt_of_lt_of_le (filed.opened id mem) added.size_le,
    added.aged filed.aged parent⟩

theorem perform (filed : s.WellFiled) {work : Work} {slot : Slot} {r : Except Failure Nat}
    {after : Job} (run : (work.job slot).perform s = .ok ((r, after), t)) : t.WellFiled := by
  have done := Job.perform_files (work.tells slot) filed.opened _ _ run
  cases r with
  | ok key => exact filed.tells done.tells
  | error e => exact filed.tells done.1.tells

end WellFiled

/-- The session has come about from a fresh one. Reports have been added and scopes opened and
closed in whatever order, jobs have been performed, and all but the reports has changed in whatever
way, the depths included. -/
inductive Arises : Session → Prop where
  | start (ledger : Ledger) (registry : Registry) (inventory : Inventory) :
    Arises (start ledger registry inventory)
  | addRoot {s : Session} (report : Report) : s.Arises →
    Arises { s with reports := s.reports.addRoot report }
  | addChild {s : Session} (parent : Nat) (report : Report) :
    s.Arises → Arises { s with reports := s.reports.addChild parent report }
  | markError {s : Session} (id : Nat) : s.Arises →
    Arises { s with reports := s.reports.markError id }
  | addReport {s : Session} (report : Report) : s.Arises → (s.addReport report).Arises
  | addError {s : Session} (report : Report) : s.Arises → (s.addError report).Arises
  | openReport {s : Session} (report : Report) : s.Arises → (s.openReport report).Arises
  | closeReport {s : Session} : s.Arises → s.closeReport.Arises
  | closeError {s : Session} : s.Arises → s.closeError.Arises
  | enter {s : Session} (title : Report) : s.Arises → (s.enter title).Arises
  | leave {s : Session} : s.Arises → s.leave.Arises
  | leaveError {s : Session} : s.Arises → s.leaveError.Arises
  | perform {s t : Session} (work : Work) (slot : Slot) {r : Except Failure Nat} {after : Job} :
    s.Arises → (work.job slot).perform s = .ok ((r, after), t) → t.Arises
  | elsewhere {s t : Session} : s.Arises → t.reports = s.reports →
    t.openReports = s.openReports → t.Arises

/-! ## The scope of a job -/

/-- All that comes between `s` and `t` is a report under the one that was open, and what is below
it. -/
structure AddsScope (s t : Session) (title : Report) (failed : Bool) : Prop where
  openReports : t.openReports = s.openReports
  depths : t.depths = s.depths
  /-- Old reports say what they said, have no other mark and stay where they are. -/
  kept : ∀ id < s.reports.size, t.reports.get? id = s.reports.get? id
  own : t.reports.get? s.reports.size = some ⟨title, failed, s.openReports.head?⟩
  children : ∀ id < s.reports.size, t.reports.children id = s.reports.children id
    ++ if s.openReports.head? = some id then [s.reports.size] else []
  roots : t.reports.roots = s.reports.roots
    ++ if s.openReports.head? = none then [s.reports.size] else []
  inside : ∀ id < t.reports.size, s.reports.size ≤ id → id ∈ t.reports.subtree s.reports.size

/-- By induction on the age: the parent of what is filed below the first report is filed there as
well. -/
theorem Files.above (files : s.Files t title) (there : id < t.reports.size)
    (new : s.reports.size ≤ id) :
    t.reports.Above s.reports.size id := by
  induction id using Nat.strongRecOn with
  | ind id ih =>
    rcases Nat.eq_or_lt_of_le new with rfl | later
    · exact .refl
    · obtain ⟨e, found⟩ := ReportForest.exists_get? there
      obtain ⟨p, parent, recent, older⟩ := files.below found later
      have link : t.reports.parent? id = some p := ReportForest.parent?_eq_some.2 ⟨e, found, parent⟩
      exact .head link (ih p older (by omega) recent)

/-- What is filed for a job is the scope of the statement, in a forest that has been well filed. -/
theorem Files.addsScope (files : s.Files t title) (filed : s.WellFiled)
    (own : t.reports.get? s.reports.size = some ⟨title, failed, s.openReports.head?⟩) :
    s.AddsScope t title failed where
  openReports := files.tells.openReports
  depths := files.tells.depths
  kept := by
    intro id old
    obtain ⟨e, found⟩ := ReportForest.exists_get? old
    rw [found]
    exact files.tells.reports.kept found
  own := own
  children :=
    fun id old => files.tells.reports.withParent ⟨_, own, rfl⟩ files.below (by simpa using old)
  roots := files.tells.reports.withParent ⟨_, own, rfl⟩ files.below nofun
  inside := by
    intro id there new
    have aged : t.reports.Aged := (filed.tells files.tells).aged
    -- the report of the job is above every report that is new
    exact (files.above there new).mem_subtree aged there

end Session

namespace Job

variable {job : Job} {s : Session}

theorem perform_addsScope (work : (job.work job.slot).Tells) (filed : s.WellFiled) :
    job.perform.Ensures s fun r t => Attempt.Ends (fun _ t => s.AddsScope t job.title false)
      (fun _ t => s.AddsScope t job.title true) r.1 t := by
  apply perform_scope work filed.opened
  · intro key t inner
    have files : s.Files t.closeReport job.title := .closeReport filed.opened inner
    have own := Session.get?_of_opened filed.opened inner
    exact files.addsScope filed own
  · intro e t told
    have files : s.Files t.closeError job.title := .closeError filed.opened told.1
    have own := Session.get?_closeError filed.opened told.1
    exact (files.rollback s.savepoint).addsScope filed own

end Job

namespace Session

/-- By induction on what has happened: the reports of any session are well filed. -/
theorem Arises.wellFiled {s : Session} (arises : s.Arises) : s.WellFiled := by
  induction arises with
  | start ledger registry inventory => exact .start ledger registry inventory
  | addRoot report _ ih => exact ih.file nofun
  | addChild parent report _ ih =>
    refine ih.file fun p under => ?_
    -- without such a parent the report would be a root
    split at under
    · cases under
      assumption
    · cases under
  | markError id _ ih => exact ih.markError id
  | addReport report _ ih => exact ih.tells (tells_addReport ih.opened report)
  | addError report _ ih => exact ih.tells (tells_addError ih.opened report)
  | openReport report _ ih => exact ih.openReport report
  | closeReport _ ih => exact ih.closeReport
  | closeError _ ih => exact ih.closeError
  | enter title _ ih => exact (ih.openReport title).elsewhere rfl rfl
  | leave _ ih => exact ih.leave
  | leaveError _ ih => exact ih.leaveError
  | perform work slot _ run ih => exact ih.perform run
  | elsewhere _ reports openReports ih => exact ih.elsewhere reports openReports

/-- In any session the reports are well filed, and there whatever job is performed is a scope of its
own: reports and marks of others stay as they are, and the same scopes are open as before, whether
the job fails or not. -/
theorem scopes_are_nested :
    (∀ {s : Session}, s.Arises → s.WellFiled)
    ∧ ∀ {s t : Session} (work : Work) (slot : Slot) {r : Except Failure Nat}
      {after : Job}, s.WellFiled →
      (work.job slot).perform s = .ok ((r, after), t) →
        s.AddsScope t (work.job slot).title (!r.isOk) := by
  constructor
  · exact Arises.wellFiled
  · intro s t work slot r after filed run
    have done := Job.perform_addsScope (work.tells slot) filed _ _ run
    cases r with
    | ok key => exact done
    | error e => exact done

/-- A compartment that cannot be brought together, asked for in the midst of another job: within the
compartment a room is tried, which fails in scopes of its own. -/
theorem crowded_gateway_is_nested :
    let fresh :=
      Session.start (.empty "pass" ⟨0, 100, by decide⟩)
        (Registry.empty.load Sample.exchange) Sample.exchange
    let outer := (fresh.addError (.resourceNotFound ⟨"lost"⟩)).enter (.allocatingCompartment 3)
    let s := outer.openReport .findingAvailableResource
    let job :=
      (Work.compartment [.existing Sample.studio.id, .external (.ofList [.sip]) 20]).job
        ⟨1, 5, by decide⟩
    s.Arises ∧ s.openReports = [2, 1]
      ∧ ∃ e after t, job.perform s = .ok ((.error e, after), t)
      ∧ s.AddsScope t (.allocatingCompartment 2) true := by
  intro fresh outer s job
  have arises : s.Arises := .openReport _ (.enter _ (.addError _ (.start _ _ _)))
  -- too many for the gateway, so the job fails inside the open report
  have fails : job.perform.Attains s fun r _ => r.1.toOption = none := by decide +kernel
  obtain ⟨⟨r, after⟩, t, run, failed⟩ := fails
  refine ⟨arises, rfl, ?_⟩
  cases r with
  | ok key => cases failed
  | error e => exact ⟨e, after, t, run, scopes_are_nested.2 _ _ (scopes_are_nested.1 arises) run⟩

end Session

end Conference
