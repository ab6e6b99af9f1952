import Conference.Proofs.Session.Builds
import Conference.Proofs.Session.Ensures

/-!
# The causes of failures

A failure names the report that is its cause. Reports are only ever added, and what one says never
changes, so a cause goes on saying what it said when the attempt failed, however far up the failure
is handed. An attempt *explains* itself by some reports if each of its failures has one of them as
its cause, and the kind of the failure is the one that this report stands for.
-/

namespace Conference

variable {α β : Type}

namespace Session

/-- What has been reported, in order. -/
def log (s : Session) : List Report := s.reports.entries.map (·.report)

section Log

variable (s : Session) (report : Report)

/-- A report goes to the end of the log, whether or not another one is open. -/
@[simp]
theorem log_addReport : (s.addReport report).log = s.log ++ [report] := by
  unfold addReport log
  cases s.openReports with
  | nil => exact List.map_append
  | cons parent opened => exact List.map_append

@[simp]
theorem log_openReport : (s.openReport report).log = s.log ++ [report] := s.log_addReport report

@[simp]
theorem log_enter : (s.enter report).log = s.log ++ [report] := s.log_addReport report

/-- Marking a report as an error does not change what it says, nor where it stands. -/
theorem log_markError (f : ReportForest) (id : Nat) :
    (f.markError id).entries.map (·.report) = f.entries.map (·.report) := by
  refine List.ext_getElem? fun place => ?_
  rw [List.getElem?_map, List.getElem?_map]
  -- place by place: the report at a place is the same, and only its mark may differ
  show ((f.markError id).get? place).map _ = (f.get? place).map _
  rw [f.get?_markError, Option.map_map]
  congr 1
  funext e
  simp only [Function.comp_apply]
  split <;> rfl

@[simp]
theorem log_addError : (s.addError report).log = s.log ++ [report] := by
  rw [← s.log_addReport]
  exact log_markError _ _

@[simp]
theorem log_fail : (s.fail report).2.log = s.log ++ [report] := s.log_addError report

@[simp]
theorem log_closeError : s.closeError.log = s.log := by
  unfold closeError
  split
  · rfl
  · exact log_markError _ _

/-- To leave a job with errors marks each report that the job still has open, one after the
other. -/
@[simp]
theorem log_leaveError : s.leaveError.log = s.log :=
  List.foldlRecOn (motive := fun f : ReportForest => f.entries.map (·.report) = s.log)
    (s.openReports.take s.scope) ReportForest.markError rfl fun f before id _ =>
      (log_markError f id).trans before

@[simp]
theorem log_closeReport : s.closeReport.log = s.log := rfl

@[simp]
theorem log_leave : s.leave.log = s.log := rfl

@[simp]
theorem log_rollback (p : Savepoint) : (s.rollback p).log = s.log := rfl

@[simp]
theorem log_create (node : Reservation) : (s.create node).2.log = s.log := rfl

theorem size_log : s.log.length = s.reports.size := List.length_map _

end Log

/-- A check reports nothing. -/
@[simp]
theorem log_checkResource (s : Session) (id : ResourceId) (slot : Slot) :
    (s.checkResource id slot).2.log = s.log := by
  unfold checkResource
  split
  · rfl
  · split
    · rfl
    · simp only
      split <;> rfl

theorem log_attach {s t : Session} {parent child : Nat} (done : s.attach parent child = .ok t) :
    t.log = s.log := by
  obtain ⟨f, -, rfl⟩ := attach_eq_ok done
  rfl

end Session

/-- The cause of the failure is a report that satisfies `p`, and stands for a failure of this
kind. -/
def Failure.Cites (e : Failure) (s : Session) (p : Report → Prop) : Prop :=
  ∃ report, s.log[e.cause]? = some report ∧ report.failureKind? = some e.kind ∧ p report

/-- No report is lost. -/
def Action.Recalls (a : Action α) : Prop := ∀ s, a.Ensures s fun _ t => s.log <+: t.log

/-- No report is lost, and each failure has a report that satisfies `p` as its cause. -/
def Attempt.Explains (a : Attempt α) (p : Report → Prop) : Prop :=
  ∀ s, a.Ensures s (fun _ t => s.log <+: t.log) fun e t => s.log <+: t.log ∧ e.Cites t p

namespace Failure.Cites

variable {e : Failure} {s t : Session} {p q : Report → Prop}

/-- The cause may be described less closely. -/
theorem mono (h : e.Cites s p) (imp : ∀ report, p report → q report) : e.Cites s q := by
  obtain ⟨report, there, kind, hp⟩ := h
  exact ⟨report, there, kind, imp report hp⟩

/-- The cause is there, and says so itself. -/
theorem exists_entry (h : e.Cites s p) :
    ∃ d, s.reports.get? e.cause = some d ∧ d.report.failureKind? = some e.kind ∧ p d.report := by
  obtain ⟨report, there, kind, hp⟩ := h
  unfold Session.log at there
  rw [List.getElem?_map] at there
  obtain ⟨d, found, rfl⟩ := Option.map_eq_some_iff.1 there
  exact ⟨d, found, kind, hp⟩

/-- A cause goes on saying what it said. -/
theorem later (h : e.Cites s p) (grown : s.log <+: t.log) : e.Cites t p := by
  obtain ⟨report, there, rest⟩ := h
  obtain ⟨added, grown⟩ := grown
  refine ⟨report, ?_, rest⟩
  rw [← grown, List.getElem?_append_left (List.getElem?_eq_some_iff.1 there).1]
  exact there

/-- The cause of a new failure is the report that has just been added. Its place is the length of
the log before. -/
theorem fail {report : Report} (s : Session) (classified : report.failureKind?.isSome)
    (hp : p report) :
    (s.fail report).1.Cites (s.fail report).2 p := by
  refine ⟨report, ?_, ?_, hp⟩
  · show (s.fail report).2.log[s.reports.size]? = _
    rw [Session.log_fail, ← s.size_log]
    exact List.getElem?_concat_length
  · obtain ⟨kind, found⟩ := Option.isSome_iff_exists.1 classified
    show _ = some (report.failureKind?.getD .capacityExhausted)
    rw [found]
    rfl

end Failure.Cites

namespace Action.Recalls

theorem pure (x : α) : Action.Recalls (Pure.pure x) :=
  fun s => Action.Ensures.pure (List.prefix_refl s.log)

/-- The log only grows, step by step. -/
theorem bind {a : Action α} {f : α → Action β} (ha : a.Recalls) (hf : ∀ x, (f x).Recalls) :
    Action.Recalls (a >>= f) := by
  intro s
  refine Action.Ensures.bind (ha s) fun x t grown => ?_
  exact (hf x t).mono fun _ _ grown' => grown.trans grown'

theorem get : Action.Recalls get :=
  fun s => fun _ _ run => by cases run; exact List.prefix_refl s.log

theorem modify {f : Session → Session} (h : ∀ s, s.log <+: (f s).log) : Action.Recalls (modify f) :=
  fun s => fun _ _ run => by cases run; exact h s

theorem modifyGet {f : Session → α × Session} (h : ∀ s, s.log <+: (f s).2.log) :
    Action.Recalls (MonadState.modifyGet f) :=
  fun s => Action.Ensures.modifyGet (h s)

theorem ask (f : Session → Except Fault α) : (Action.ask f).Recalls :=
  fun s => Action.Ensures.ask fun _ _ => List.prefix_refl s.log

theorem change {f : Session → Except Fault Session} (h : ∀ {s t}, f s = .ok t → t.log = s.log) :
    (Action.change f).Recalls :=
  fun s => Action.Ensures.change fun _ done => h done ▸ List.prefix_refl s.log

/-- An attempt that explains itself keeps the log, also where it fails. -/
theorem outcome {a : Attempt α} {p : Report → Prop} (ha : a.Explains p) :
    (Action.outcome a).Recalls := by
  intro s
  refine Action.Ensures.mono (ha s) fun r t done => ?_
  cases r with
  | ok x => exact done
  | error e => exact done.1

end Action.Recalls

namespace Attempt.Explains

variable {p q : Report → Prop}

theorem pure (x : α) : Attempt.Explains (Pure.pure x) p :=
  fun s => Attempt.Ensures.pure (List.prefix_refl s.log)

/-- A failure of the second attempt is explained by the same report in the longer log. -/
theorem bind {a : Attempt α} {f : α → Attempt β} (ha : a.Explains p) (hf : ∀ x, (f x).Explains p) :
    Attempt.Explains (a >>= f) p := by
  intro s
  refine Attempt.Ensures.bind (ha s) fun x t grown => ?_
  exact (hf x t).mono (fun _ _ grown' => grown.trans grown')
    fun _ _ failed => ⟨grown.trans failed.1, failed.2⟩

/-- An action cannot fail, so there is nothing to explain. -/
theorem lift {a : Action α} (ha : a.Recalls) : Attempt.Explains (liftM a) p :=
  fun s => Attempt.Ensures.lift (ha s)

/-- Reports may be described less closely. -/
theorem mono {a : Attempt α} (ha : a.Explains p) (imp : ∀ report, p report → q report) :
    a.Explains q :=
  fun s => (ha s).mono (fun _ _ grown => grown) fun _ _ failed => ⟨failed.1, failed.2.mono imp⟩

/-- A refusal is explained by the report that it makes, if that stands for some kind of failure. -/
theorem refuse {report : Report} (classified : report.failureKind?.isSome) (hp : p report) :
    (Attempt.refuse report : Attempt α).Explains p := by
  intro s
  refine Attempt.Ensures.refuse ⟨?_, .fail s classified hp⟩
  rw [Session.log_fail]
  exact List.prefix_append _ _

theorem get : Attempt.Explains get p := lift Action.Recalls.get

theorem modify {f : Session → Session} (h : ∀ s, s.log <+: (f s).log) :
    Attempt.Explains (modify f) p :=
  lift (Action.Recalls.modify h)

theorem modifyGet {f : Session → α × Session} (h : ∀ s, s.log <+: (f s).2.log) :
    Attempt.Explains (MonadState.modifyGet f) p := lift (Action.Recalls.modifyGet h)

theorem ask (f : Session → Except Fault α) : (Attempt.ask f).Explains p :=
  lift (Action.Recalls.ask f)

end Attempt.Explains

end Conference
