import Conference.Proofs.Report.Blame
import Conference.Proofs.Session.Builds
import Conference.Proofs.Session.Ensures

/-!
# Sessions that tell what they do

What an allocation does to the reports of its session, seen from the outside: it *tells* something,
that is, it adds reports under the one that is open, and closes again whatever it has opened itself.
Within a scope of its own an allocation *shuts* the report of the scope at some point and goes on
telling outside of it; a scope as a whole tells something again. An attempt that fails has to have
all errors in place by then, from its cause on up to the report under which it has been made.
-/

namespace Conference

variable {α β : Type}

namespace Session

variable {s t u : Session} {report : Report}

/-- The reports that are open exist. -/
def Scoped (s : Session) : Prop := ∀ id ∈ s.openReports, id < s.reports.size

/-- From `s` to `t` reports have come under the one that is open in `s`, and the same ones are open
at the end. -/
structure Tells (s t : Session) : Prop where
  openReports : t.openReports = s.openReports
  depths : t.depths = s.depths
  reports : s.reports.Adds s.openReports.head? t.reports

namespace Tells

/-- What is no business of the reports tells nothing. -/
theorem of_same (reports : t.reports = s.reports) (openReports : t.openReports = s.openReports)
    (depths : t.depths = s.depths) : s.Tells t where
  openReports := openReports
  depths := depths
  reports := reports ▸ .refl _ _

theorem refl (s : Session) : s.Tells s := .of_same rfl rfl rfl

/-- Telling composes: the report that is open in the middle is the one that is open at the start. -/
theorem trans (first : s.Tells t) (second : t.Tells u) : s.Tells u where
  openReports := second.openReports.trans first.openReports
  depths := second.depths.trans first.depths
  reports := by
    have later := second.reports
    rw [first.openReports] at later
    exact first.reports.trans later

/-- Whatever is told, the open reports stay the same, and no report goes away. -/
theorem stays_scoped (tells : s.Tells t) (sound : s.Scoped) : t.Scoped := by
  intro id opened
  rw [tells.openReports] at opened
  -- the forest of reports only grows
  exact Nat.lt_of_lt_of_le (sound id opened) tells.reports.size_le

/-- The new reports stand under one that was there before, so each is younger than its parent. -/
theorem aged (tells : s.Tells t) (sound : s.Scoped) (aged : s.reports.Aged) : t.reports.Aged :=
  tells.reports.aged aged fun p current => sound p (List.mem_of_head? current)

end Tells

/-! ## Reports on their own -/

/-- A report is added behind the others, under the one that is open. As that one exists, the report
does not become a root. -/
theorem reports_addReport (sound : s.Scoped) (report : Report) :
    (s.addReport report).reports
      = ⟨s.reports.entries ++ [⟨report, false, s.openReports.head?⟩]⟩ := by
  unfold addReport
  cases opened : s.openReports with
  | nil => rfl
  | cons parent outer =>
    have below : parent < s.reports.size := sound parent (opened ▸ List.mem_cons_self)
    simp only [ReportForest.addChild, if_pos below, List.head?_cons]

theorem tells_addReport (sound : s.Scoped) (report : Report) : s.Tells (s.addReport report) where
  openReports := rfl
  depths := rfl
  reports := by
    rw [reports_addReport sound]
    exact s.reports.adds_concat rfl

/-- The new report has the next place, says what it was given, and is no error yet. -/
theorem get?_addReport (sound : s.Scoped) (report : Report) :
    (s.addReport report).reports.get? s.reports.size
      = some ⟨report, false, s.openReports.head?⟩ := by
  rw [reports_addReport sound, ReportForest.get?_concat, if_pos rfl]

/-- An error is a report that is marked right after it has been added. -/
theorem tells_addError (sound : s.Scoped) (report : Report) : s.Tells (s.addError report) where
  openReports := rfl
  depths := rfl
  reports := (tells_addReport sound report).reports.markError (Nat.le_refl _)

theorem get?_addError (sound : s.Scoped) (report : Report) :
    (s.addError report).reports.get? s.reports.size = some ⟨report, true, s.openReports.head?⟩ :=
  ReportForest.get?_markError_self (get?_addReport sound report)

/-- A check reports nothing, whether it passes or not: it hands its reason to whoever has asked. -/
theorem tells_checkResource (s : Session) (id : ResourceId) (slot : Slot) :
    s.Tells (s.checkResource id slot).2 := by
  unfold checkResource
  split
  · exact .refl s
  · split
    · exact .refl s
    · simp only
      split
      · exact .refl s
      · exact .of_same rfl rfl rfl

theorem tells_create (s : Session) (node : Reservation) : s.Tells (s.create node).2 :=
  .of_same rfl rfl rfl

theorem tells_attach {parent child : Nat} (done : s.attach parent child = .ok t) : s.Tells t := by
  obtain ⟨f, -, rfl⟩ := attach_eq_ok done
  exact .of_same rfl rfl rfl

theorem tells_rollback (s : Session) (p : Savepoint) : s.Tells (s.rollback p) :=
  .of_same rfl rfl rfl

/-! ## Scopes -/

/-- The report that is opened exists from then on, and those that were open go on existing. -/
theorem scoped_openReport (sound : s.Scoped) (report : Report) : (s.openReport report).Scoped := by
  have grown := (tells_addReport sound report).reports.size_le
  have own := ReportForest.lt_size_of_get? (get?_addReport sound report)
  intro id opened
  -- either it is the report that has just been added, or one that was open before
  rcases List.mem_cons.1 opened with rfl | outer
  · exact own
  · exact Nat.lt_of_lt_of_le (sound id outer) grown

/-- What is told within a scope is told outside of it, below the report of the scope. -/
theorem adds_of_opened (sound : s.Scoped) (inner : (s.openReport report).Tells t) :
    s.reports.Adds s.openReports.head? t.reports := by
  have own := ReportForest.lt_size_of_get? (get?_addReport sound report)
  exact (tells_addReport sound report).reports.under (Nat.le_refl _) own inner.reports

/-- The report of a scope stays what it is while something is told within. -/
theorem get?_of_opened (sound : s.Scoped) (inner : (s.openReport report).Tells t) :
    t.reports.get? s.reports.size = some ⟨report, false, s.openReports.head?⟩ :=
  inner.reports.kept (get?_addReport sound report)

/-- What has been told within an open report has been told, once that is closed, under the report
outside. -/
theorem Tells.closeReport (sound : s.Scoped) (inner : (s.openReport report).Tells t) :
    s.Tells t.closeReport where
  openReports := congrArg List.tail inner.openReports
  depths := inner.depths
  reports := show s.reports.Adds _ t.reports from adds_of_opened sound inner

theorem closeError_of_cons {own : Nat} {outer : List Nat} (opened : s.openReports = own :: outer) :
    s.closeError = { s with reports := s.reports.markError own, openReports := outer } := by
  unfold closeError
  rw [opened]

/-- A report that is closed as an error is marked besides, and it is one of the new ones. -/
theorem Tells.closeError (sound : s.Scoped) (inner : (s.openReport report).Tells t) :
    s.Tells t.closeError := by
  rw [closeError_of_cons inner.openReports]
  exact ⟨rfl, inner.depths, (adds_of_opened sound inner).markError (Nat.le_refl _)⟩

/-- A scope that is closed as an error is one. -/
theorem get?_closeError (sound : s.Scoped) (inner : (s.openReport report).Tells t) :
    t.closeError.reports.get? s.reports.size = some ⟨report, true, s.openReports.head?⟩ := by
  rw [closeError_of_cons inner.openReports]
  exact ReportForest.get?_markError_self (get?_of_opened sound inner)

/-- Closing as an error keeps each report but for the mark. -/
theorem extends_closeError (s : Session) : s.reports.Extends s.closeError.reports := by
  unfold closeError
  split
  · exact .refl _
  · exact ReportForest.extends_markError _ _

end Session

/-- Whatever the action tells, it closes the scopes that it opens. -/
def Action.Tells (a : Action α) : Prop := ∀ s : Session, s.Scoped → a.Ensures s fun _ t => s.Tells t

/-- The action ends the scope within which it starts, and no other one. -/
def Action.Shuts (a : Action α) : Prop :=
  ∀ (s t : Session) (report : Report), s.Scoped → (s.openReport report).Tells t →
    a.Ensures t fun _ u => s.Tells u

/-- From `s` the attempt has come to `t` without success, and all errors are in place. -/
def Failure.Told (e : Failure) (s t : Session) : Prop :=
  s.Tells t ∧ t.reports.Blamed s.openReports.head? e.cause

/-- Whatever the attempt tells, it closes the scopes that it opens, also if it fails. -/
def Attempt.Tells (a : Attempt α) : Prop :=
  ∀ s : Session, s.Scoped → a.Ensures s (fun _ t => s.Tells t) fun e t => e.Told s t

/-- The attempt ends the scope within which it starts, as an error if it fails. -/
def Attempt.Shuts (a : Attempt α) : Prop :=
  ∀ (s t : Session) (report : Report), s.Scoped → (s.openReport report).Tells t →
    a.Ensures t (fun _ u => s.Tells u) fun e u => e.Told s u

namespace Failure.Told

variable {e : Failure} {s t u : Session} {report : Report}

/-- What was told before does not matter for the blame: it reaches up to the report that was open at
the start as well. -/
theorem after (told : e.Told t u) (before : s.Tells t) : e.Told s u := by
  obtain ⟨tells, blamed⟩ := told
  rw [before.openReports] at blamed
  exact ⟨before.trans tells, blamed⟩

/-- Errors stay in place while more is told. -/
theorem tells (told : e.Told s t) (more : t.Tells u) : e.Told s u :=
  ⟨told.1.trans more, told.2.of_extends more.reports.extend⟩

/-- A failure adds its cause as an error directly under the open report, so there is nothing in
between to be marked. -/
theorem fail (sound : s.Scoped) (report : Report) : (s.fail report).1.Told s (s.fail report).2 :=
  ⟨Session.tells_addError sound report, .last (Session.get?_addError sound report) rfl rfl⟩

/-- What is to blame within a scope is to blame outside once the scope is closed as an error. -/
theorem closeError (sound : s.Scoped) (told : e.Told (s.openReport report) t) :
    e.Told s t.closeError := by
  obtain ⟨inner, blamed⟩ := told
  refine ⟨inner.closeError sound, ?_⟩
  exact (blamed.of_extends t.extends_closeError).trans
    (.last (Session.get?_closeError sound inner) rfl rfl)

end Failure.Told

namespace Action.Tells

theorem pure (x : α) : Action.Tells (Pure.pure x) := fun s _ => Action.Ensures.pure (.refl s)

/-- One action after the other tells, if each of them does wherever it starts. -/
theorem bind {a : Action α} {f : α → Action β} (ha : a.Tells) (hf : ∀ x, (f x).Tells) :
    Action.Tells (a >>= f) := by
  intro s sound
  refine Action.Ensures.bind (ha s sound) fun x t told => ?_
  exact (hf x t (told.stays_scoped sound)).mono fun _ _ more => told.trans more

theorem get : Action.Tells get := fun _ _ => fun _ _ run => by cases run; exact .refl _

/-- A change of the session tells if it does so from each session the open reports of which
exist. -/
theorem update {f : Session → Session} (h : ∀ s : Session, s.Scoped → s.Tells (f s)) :
    Action.Tells (modify f) :=
  fun s sound => fun _ _ run => by cases run; exact h s sound

theorem addReport (report : Report) : Action.Tells (modify (·.addReport report)) :=
  .update fun _ sound => Session.tells_addReport sound report

theorem addError (report : Report) : Action.Tells (modify (·.addError report)) :=
  .update fun _ sound => Session.tells_addError sound report

theorem modifyGet {f : Session → α × Session} (h : ∀ s : Session, s.Tells (f s).2) :
    Action.Tells (MonadState.modifyGet f) :=
  fun s _ => Action.Ensures.modifyGet (h s)

theorem ask (f : Session → Except Fault α) : (Action.ask f).Tells :=
  fun s _ => Action.Ensures.ask fun _ _ => .refl s

theorem change {f : Session → Except Fault Session}
    (h : ∀ {s t : Session}, f s = .ok t → s.Tells t) :
    (Action.change f).Tells :=
  fun _ _ => Action.Ensures.change fun _ done => h done

theorem map {a : Action α} {f : α → β} (ha : a.Tells) : Action.Tells (f <$> a) :=
  fun s sound => Action.Ensures.map (ha s sound)

/-- To look at the outcome of an attempt tells what the attempt has told, whichever way it ended. -/
theorem outcome {a : Attempt α} (ha : a.Tells) : (Action.outcome a).Tells := by
  intro s sound
  refine Action.Ensures.mono (ha s sound) fun r t done => ?_
  cases r with
  | ok x => exact done
  | error e => exact done.1

/-- A scope that is shut tells something. -/
theorem scope {report : Report} {k : PUnit → Action α} (h : (k ⟨⟩).Shuts) :
    Action.Tells (modify (·.openReport report) >>= k) := by
  intro s sound
  apply Action.Ensures.modify_bind
  exact h s _ report sound (.refl _)

end Action.Tells

namespace Action.Shuts

/-- What tells may come before what shuts the scope. -/
theorem bind {a : Action α} {f : α → Action β} (ha : a.Tells) (hf : ∀ x, (f x).Shuts) :
    Action.Shuts (a >>= f) := by
  intro s t report sound inner
  refine Action.Ensures.bind (ha t (inner.stays_scoped (Session.scoped_openReport sound report)))
    fun x u told => ?_
  exact hf x s u report sound (inner.trans told)

/-- The scope is shut by closing its report, and what follows tells outside of it. -/
theorem closeReport {k : PUnit → Action α} (h : (k ⟨⟩).Tells) :
    Action.Shuts (modify (·.closeReport) >>= k) := by
  intro s t report sound inner
  apply Action.Ensures.modify_bind
  have told := inner.closeReport sound
  exact (h _ (told.stays_scoped sound)).mono fun _ _ more => told.trans more

/-- The scope may be shut with an error just as well. -/
theorem closeError {k : PUnit → Action α} (h : (k ⟨⟩).Tells) :
    Action.Shuts (modify (·.closeError) >>= k) := by
  intro s t report sound inner
  apply Action.Ensures.modify_bind
  have told := inner.closeError sound
  exact (h _ (told.stays_scoped sound)).mono fun _ _ more => told.trans more

end Action.Shuts

namespace Attempt.Tells

theorem pure (x : α) : Attempt.Tells (Pure.pure x) := fun s _ => Attempt.Ensures.pure (.refl s)

/-- If the second attempt fails, what it has told comes on top of what the first one has told. -/
theorem bind {a : Attempt α} {f : α → Attempt β} (ha : a.Tells) (hf : ∀ x, (f x).Tells) :
    Attempt.Tells (a >>= f) := by
  intro s sound
  refine Attempt.Ensures.bind (ha s sound) fun x t told => ?_
  exact (hf x t (told.stays_scoped sound)).mono (fun _ _ more => told.trans more) fun _ _ failed =>
    failed.after told

theorem lift {a : Action α} (ha : a.Tells) : Attempt.Tells (liftM a) :=
  fun s sound => Attempt.Ensures.lift (ha s sound)

/-- A refusal tells its report and has it for its cause. -/
theorem refuse (report : Report) : (Attempt.refuse report : Attempt α).Tells :=
  fun _ sound => Attempt.Ensures.refuse (.fail sound report)

theorem get : Attempt.Tells get := lift Action.Tells.get

theorem modifyGet {f : Session → α × Session} (h : ∀ s : Session, s.Tells (f s).2) :
    Attempt.Tells (MonadState.modifyGet f) := lift (Action.Tells.modifyGet h)

theorem ask (f : Session → Except Fault α) : (Attempt.ask f).Tells := lift (Action.Tells.ask f)

/-- A scope as a whole tells, if what is done within it shuts it. -/
theorem scope {report : Report} {k : PUnit → Attempt α} (h : (k ⟨⟩).Shuts) :
    Attempt.Tells (modify (·.openReport report) >>= k) := by
  intro s sound
  apply Attempt.Ensures.modify_bind
  exact h s _ report sound (.refl _)

end Attempt.Tells

namespace Attempt.Shuts

/-- What tells and cannot fail may come before what shuts the scope. -/
theorem bind {a : Action α} {f : α → Attempt β} (ha : a.Tells) (hf : ∀ x, (f x).Shuts) :
    Attempt.Shuts (liftM a >>= f) := by
  intro s t report sound inner
  have told := ha t (inner.stays_scoped (Session.scoped_openReport sound report))
  refine Attempt.Ensures.bind (Attempt.Ensures.lift told) fun x u more => ?_
  exact hf x s u report sound (inner.trans more)

/-- The scope is shut before anything can fail, so that a failure is told outside of it. -/
theorem closeReport {k : PUnit → Attempt α} (h : (k ⟨⟩).Tells) :
    Attempt.Shuts (modify (·.closeReport) >>= k) := by
  intro s t report sound inner
  apply Attempt.Ensures.modify_bind
  have told := inner.closeReport sound
  exact (h _ (told.stays_scoped sound)).mono (fun _ _ more => told.trans more) fun _ _ failed =>
    failed.after told

end Attempt.Shuts

end Conference
