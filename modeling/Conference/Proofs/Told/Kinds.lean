import Conference.Allocation.Exclusive
import Conference.Allocation.Recording
import Conference.Allocation.Room
import Conference.Proofs.Job
import Conference.Proofs.Session.Tells

/-!
# What the kinds of work tell

Each step of an allocation tells something, however it ends: it closes the scopes that it opens on
every way out. A job files all that its work tells under a report of its own.
-/

namespace Conference

variable {slot : Slot}

/-! ## Surveys -/

namespace Survey

variable {dimension : Dimension}

/-- A refusal is the only report there can be. -/
theorem eligible_tells (given : Option ResourceId) (slot : Slot) (usable : Resource → Bool)
    (capability : String) :
    (eligible given slot usable capability).Tells := by
  unfold eligible
  cases given with
  | some id =>
    -- the check may read a snapshot anew and tells nothing itself
    refine .bind (.modifyGet fun s => s.tells_checkResource id slot) fun checked => ?_
    split
    · exact .refuse _
    · split
      · exact .pure _
      · exact .refuse _
  | none =>
    refine .bind .get fun s => ?_
    split
    · exact .refuse _
    · exact .pure _

/-- A resource is looked at within a scope, which ends as an error if there is something against the
resource. -/
theorem examine_tells (id : ResourceId) : (examine slot dimension id).Tells := by
  unfold examine
  refine .scope (.bind (.modifyGet fun s => s.tells_checkResource id slot) fun checked => ?_)
  split
  · exact .bind (.addError _) fun _ => .closeError (.pure _)
  · refine .bind (.ask _) fun used => ?_
    split
    · exact .bind (.addError _) fun _ => .closeError (.pure _)
    · refine .bind .get fun s => .bind (.ask _) fun candidate => ?_
      exact .bind (.addReport _) fun _ => .closeReport (.pure _)

/-- By induction on the resources. -/
theorem examineAll_tells (ids : List ResourceId) : (examineAll slot dimension ids).Tells := by
  induction ids with
  | nil => exact .pure _
  | cons id ids ih => exact .bind (examine_tells id) fun found => .bind ih fun others => .pure _

/-- The reports of an examination lie in a scope of their own, which is closed behind it. -/
theorem available_tells (ids : List ResourceId) : (available slot dimension ids).Tells :=
  .scope (.bind (examineAll_tells ids) fun _ => .closeReport (.pure _))

theorem candidates_tells (given : Option ResourceId) (ids : List ResourceId) :
    (candidates given slot dimension ids).Tells := by
  unfold candidates
  refine .bind (available_tells ids) fun found => ?_
  split
  · exact .bind (.addReport _) fun _ => .pure _
  · exact .pure _

end Survey

/-! ## Jobs -/

namespace Session

variable {s t : Session} {report : Report}

/-- A job ends with one report open that is its own, so leaving it is closing that one. -/
theorem scope_of_entered (inner : (s.enter report).Tells t) : t.scope = 1 := by
  have opened : t.openReports.length = s.openReports.length + 1 :=
    congrArg List.length inner.openReports
  unfold scope
  rw [opened, inner.depths]
  show s.openReports.length + 1 - s.openReports.length = 1
  omega

/-- What is told in the scope of a job is told in that of its report. -/
theorem Tells.of_entered (inner : (s.enter report).Tells t) :
    (s.openReport report).Tells { t with depths := s.depths } :=
  ⟨inner.openReports, rfl, inner.reports⟩

/-- Leaving a task that has closed all it opened closes the report of the task itself. -/
theorem leave_eq (inner : (s.enter report).Tells t) :
    t.leave = Session.closeReport { t with depths := s.depths } := by
  unfold leave closeReport
  rw [scope_of_entered inner, List.drop_one, inner.depths]
  rfl

/-- The same where the task has failed: its report is marked as it is closed. -/
theorem leaveError_eq (inner : (s.enter report).Tells t) :
    t.leaveError = Session.closeError { t with depths := s.depths } := by
  have opened : t.openReports = s.reports.size :: s.openReports := inner.openReports
  have closed : Session.closeError { t with depths := s.depths } = _ := closeError_of_cons opened
  rw [closed]
  unfold leaveError
  rw [scope_of_entered inner, inner.depths, opened]
  rfl

/-- All that comes between `s` and `t` is filed under a first report. -/
structure Files (s t : Session) (title : Report) : Prop where
  tells : s.Tells t
  own : ∃ e, t.reports.get? s.reports.size = some e ∧ e.report = title
    ∧ e.parent = s.openReports.head?
  below : ∀ {id e}, t.reports.get? id = some e → s.reports.size < id →
    ∃ p, e.parent = some p ∧ s.reports.size ≤ p ∧ p < id

/-- What is told in a scope is filed under the report of the scope. -/
theorem below_of_opened (sound : s.Scoped) (inner : (s.openReport report).Tells t) {id : Nat}
    {e : ReportForest.Entry} (found : t.reports.get? id = some e) (later : s.reports.size < id) :
    ∃ p, e.parent = some p ∧ s.reports.size ≤ p ∧ p < id := by
  have size : (s.openReport report).reports.size = s.reports.size + 1 := by
    show (s.addReport report).reports.size = _
    rw [reports_addReport sound, ReportForest.size, List.length_append]
    rfl
  rcases inner.reports.parent found (by omega) with under | ⟨p, parent, above, below⟩
  · exact ⟨_, under, Nat.le_refl _, later⟩
  · exact ⟨p, parent, by omega, below⟩

/-- A report that is opened and closed around something contains all that has been reported
meanwhile. -/
theorem Files.closeReport (sound : s.Scoped) (inner : (s.openReport report).Tells t) :
    s.Files t.closeReport report where
  tells := inner.closeReport sound
  own := ⟨_, show t.reports.get? _ = _ from get?_of_opened sound inner, rfl, rfl⟩
  below := fun found later => below_of_opened sound inner found later

/-- Closed as an error, it contains the same. Only its own mark differs. -/
theorem Files.closeError (sound : s.Scoped) (inner : (s.openReport report).Tells t) :
    s.Files t.closeError report where
  tells := inner.closeError sound
  own := ⟨_, get?_closeError sound inner, rfl, rfl⟩
  below := by
    intro id e found later
    rw [closeError_of_cons inner.openReports, ReportForest.get?_markError,
      Option.map_eq_some_iff] at found
    obtain ⟨e', there, rfl⟩ := found
    rw [if_neg (by show s.reports.size ≠ id; omega)]
    exact below_of_opened sound inner there later

/-- A rollback keeps the reports. -/
theorem Files.rollback {title : Report} (files : s.Files t title) (p : Savepoint) :
    s.Files (t.rollback p) title where
  tells := files.tells.trans (tells_rollback t p)
  own := files.own
  below := files.below

end Session

namespace Job

variable {job : Job}

/-- A job ends where its scope is closed, as an error if it fails; within the scope it tells what
its work tells. -/
theorem perform_scope (work : (job.work job.slot).Tells) {s : Session} (sound : s.Scoped)
    {ok : Nat → Session → Prop} {failed : Failure → Session → Prop}
    (closed : ∀ {key t}, (s.openReport job.title).Tells t → ok key t.closeReport)
    (aborted : ∀ {e t}, e.Told (s.openReport job.title) t →
      failed e (t.closeError.rollback s.savepoint)) :
    job.perform.Ensures s fun r t => Attempt.Ends ok failed r.1 t := by
  have entered : (s.enter job.title).Scoped := Session.scoped_openReport sound job.title
  refine perform_rule ((attempt_rule (fun _ => .fail entered _) (work _ entered)).mono ?_ ?_)
  · intro key t inner
    rw [Session.leave_eq inner]
    exact closed inner.of_entered
  · rintro e t ⟨inner, blamed⟩
    rw [Session.leaveError_eq inner]
    exact aborted ⟨inner.of_entered, blamed⟩

/-- A job that fails marks its own report, above which the errors go on. -/
theorem perform_files (work : (job.work job.slot).Tells) {s : Session} (sound : s.Scoped) :
    job.perform.Ensures s fun r t => Attempt.Ends (fun _ t => s.Files t job.title)
      (fun e t => s.Files t job.title ∧ e.Told s t) r.1 t := by
  apply perform_scope work sound
  · exact fun inner => .closeReport sound inner
  · intro e t told
    have files : s.Files t.closeError job.title := .closeError sound told.1
    exact ⟨files.rollback _, (told.closeError sound).tells (Session.tells_rollback _ _)⟩

/-- A job reports in the scope of its task, whether it succeeds or not. -/
theorem run_tells (work : (job.work job.slot).Tells) : job.run.Tells :=
  fun _ sound => (run_rule (perform_files work sound)).mono (fun _ _ filed => filed.tells)
    fun _ _ failed => failed.2

theorem runUnder_tells (work : (job.work job.slot).Tells) (parent : Nat) :
    (job.runUnder parent).Tells :=
  .bind (run_tells work) fun _ => .bind (.lift (.change Session.tells_attach)) fun _ => .pure _

end Job

/-! ## Whole resources -/

namespace Exclusive

/-- A resource that is refused leaves one report. -/
theorem allocate_tells (id : ResourceId) (label : Option String) (slot : Slot) :
    (allocate id label slot).Tells := by
  unfold allocate
  refine .bind (.modifyGet fun s => s.tells_checkResource id slot) fun checked => ?_
  split
  · exact .refuse _
  · split
    · exact .refuse _
    · refine .bind (.ask _) fun used => ?_
      split
      · exact .refuse _
      · exact .modifyGet fun s => s.tells_create _

end Exclusive

/-! ## Aliases -/

namespace AliasSpec

variable (spec : AliasSpec)

/-- A value that cannot be picked is reported, and the search goes on. -/
theorem pickValue_tells (id : ResourceId) (provider : AliasProvider) :
    (spec.pickValue slot id provider).Tells := by
  unfold pickValue
  refine .bind (.ask _) fun used => ?_
  split
  · split
    · exact .bind (.addError _) fun _ => .pure _
    · split
      · exact .bind (.addError _) fun _ => .pure _
      · exact .pure _
  · split
    · exact .pure _
    · exact .bind (.addError _) fun _ => .pure _

/-- Reserving reports nothing. -/
theorem reserve_tells (id : ResourceId) (provider : AliasProvider) (value : String) :
    (spec.reserve slot id provider value).Tells := by
  unfold reserve
  refine .bind (.modifyGet fun s => s.tells_create _) fun key =>
    .bind (.modifyGet fun s => s.tells_create _) fun child => ?_
  exact .bind (.change Session.tells_attach) fun _ => .pure _

/-- By induction on the candidates, each of which is tried in a scope of its own. -/
theorem tryAll_tells (cs : List Candidate) : (spec.tryAll slot cs).Tells := by
  induction cs with
  | nil => exact .pure _
  | cons c cs ih =>
    unfold tryAll
    refine .bind .get fun s => ?_
    split
    · exact ih
    · refine .scope (.bind (spec.pickValue_tells _ _) fun found => ?_)
      split
      · exact .closeError ih
      · exact .closeReport (.map (spec.reserve_tells _ _ _))

theorem allocate_tells (target : Option ResourceId) (slot : Slot) :
    (spec.allocate target slot).Tells := by
  unfold allocate
  refine .bind (Survey.eligible_tells _ _ _ _) fun ids =>
    .bind (.lift (Survey.candidates_tells _ ids)) fun cs => ?_
  refine .bind (.lift (spec.tryAll_tells cs)) fun found => ?_
  split
  · exact .pure _
  · exact .bind .get fun s => .refuse _

end AliasSpec

/-! ## Rooms -/

namespace RoomSpec

variable (spec : RoomSpec)

/-- By induction on the aliases, each of which is a task. -/
theorem addAliases_tells (slot : Slot) (host : ResourceId) (room : Nat) (specs : List AliasSpec) :
    (addAliases slot host room specs).Tells := by
  induction specs with
  | nil => exact .pure _
  | cons first specs ih =>
    exact .bind (Job.runUnder_tells (first.allocate_tells (some host) slot) room) fun _ => ih

/-- An alias that fails is told in the scope of the room, which ends as an error then. -/
theorem place_tells (c : Candidate) : (spec.place slot c).Tells := by
  unfold place
  refine .scope (.bind (.ask _) fun used => ?_)
  simp only
  split
  · exact .bind (.addError _) fun _ => .closeError (.pure _)
  · refine .bind .get fun s => .bind (.modifyGet fun s => s.tells_create _) fun room => ?_
    refine .bind (.outcome (addAliases_tells slot c.resource room spec.aliases)) fun done => ?_
    split
    · exact .bind (.update fun s _ => s.tells_rollback _) fun _ => .closeError (.pure _)
    · exact .closeReport (.pure _)

/-- By induction on the candidates. -/
theorem tryAll_tells (cs : List Candidate) : (spec.tryAll slot cs).Tells := by
  induction cs with
  | nil => exact .pure _
  | cons c cs ih =>
    refine .bind (spec.place_tells c) fun found => ?_
    split
    · exact .pure _
    · exact ih

theorem allocate_tells (slot : Slot) : (spec.allocate slot).Tells := by
  unfold allocate
  refine .bind (Survey.eligible_tells _ _ _ _) fun ids =>
    .bind (.lift (Survey.candidates_tells _ ids)) fun cs => ?_
  refine .bind (.lift (spec.tryAll_tells cs)) fun found => ?_
  split
  · exact .pure _
  · exact .refuse _

end RoomSpec

/-! ## Recordings -/

namespace RecordingSpec

variable (spec : RecordingSpec)

theorem reserve_tells (id : ResourceId) : (spec.reserve slot id).Tells :=
  .modifyGet fun s => s.tells_create _

/-- By induction on the resources. -/
theorem tryUnlicensed_tells (ids : List ResourceId) : (spec.tryUnlicensed slot ids).Tells := by
  induction ids with
  | nil => exact .pure _
  | cons id ids ih =>
    refine .bind (.modifyGet fun s => s.tells_checkResource id slot) fun checked => ?_
    split
    · exact .map (spec.reserve_tells id)
    · exact .bind (.addError _) fun _ => ih

/-- By induction on the candidates: the ones without enough licenses are reported, the first other
one is taken. -/
theorem tryAll_tells (cs : List Candidate) : (spec.tryAll slot cs).Tells := by
  induction cs with
  | nil => exact .pure _
  | cons c cs ih =>
    unfold tryAll
    split
    · exact .bind (.addError _) fun _ => ih
    · exact .map (spec.reserve_tells _)

/-- Whether licenses are needed or not, the resources are tried in order. -/
theorem place_tells (slot : Slot) (ids : List ResourceId) : (spec.place slot ids).Tells := by
  unfold place
  split
  · exact .bind (Survey.candidates_tells _ ids) fun cs => spec.tryAll_tells cs
  · exact spec.tryUnlicensed_tells ids

theorem allocate_tells (slot : Slot) : (spec.allocate slot).Tells := by
  unfold allocate
  split
  · refine .bind (Survey.eligible_tells _ _ _ _) fun ids =>
      .bind (.lift (spec.place_tells slot ids)) fun found => ?_
    split
    · exact .pure _
    · exact .refuse _
  · exact .refuse _

end RecordingSpec

end Conference
