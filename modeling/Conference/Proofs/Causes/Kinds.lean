import Conference.Allocation.Exclusive
import Conference.Allocation.Recording
import Conference.Allocation.Room
import Conference.Proofs.Job
import Conference.Proofs.Session.Causes

/-!
# Why resources are refused

Each failure to get a resource, an alias or a room has a report as its cause, which says that
resources lack something or are in use. Only a recording may also fail since the request is
malformed. None of these reports is about connections between participants.
-/

namespace Conference

/-- The report is about a request or about resources, and not about connections. -/
def Report.OfResources (report : Report) : Prop :=
  report.failureKind? ≠ some .connectivityInfeasible

/-- The report says that resources lack what is asked for, or are in use. -/
def Report.OfSupply (report : Report) : Prop :=
  report.failureKind? = some .capabilityMismatch ∨ report.failureKind? = some .capacityExhausted

theorem Report.OfSupply.ofResources {report : Report} (supply : report.OfSupply) :
    report.OfResources := by
  rcases supply with kind | kind <;> simp [OfResources, kind]

/-- A report about supply stands for a kind of failure. -/
theorem Report.OfSupply.classified {report : Report} (supply : report.OfSupply) :
    report.failureKind?.isSome := by
  rcases supply with kind | kind <;> simp [kind]

open Report (OfResources OfSupply)

variable {α : Type} {id : ResourceId} {slot : Slot}

/-- A resource fails its check since it cannot be used at all. -/
theorem Session.failureKind?_of_checkResource {s : Session} {reason : Report}
    (refused : (s.checkResource id slot).1 = .error reason) :
    reason.failureKind? = some .capabilityMismatch := by
  unfold checkResource at refused
  split at refused
  · cases refused
    rfl
  · split at refused
    · cases refused
      rfl
    · simp only at refused
      split at refused
      · cases refused
        rfl
      · cases refused

/-- A check reports nothing itself. What follows has to explain itself both with a resource that
passes and with a reason, which stands for a capability mismatch. -/
theorem Attempt.Explains.check_bind {p : Report → Prop} {k : Except Report Resource → Attempt α}
    (passed : ∀ r, (k (.ok r)).Explains p)
    (refused : ∀ reason, reason.failureKind? = some .capabilityMismatch →
      (k (.error reason)).Explains p) :
    Attempt.Explains (MonadState.modifyGet (·.checkResource id slot) >>= k) p := by
  intro s
  apply Attempt.Ensures.modifyGet_bind
  have next : (k (s.checkResource id slot).1).Explains p := by
    cases checked : (s.checkResource id slot).1 with
    | ok r => exact passed r
    | error reason => exact refused reason (Session.failureKind?_of_checkResource checked)
  have ensured := next (s.checkResource id slot).2
  rw [Session.log_checkResource] at ensured
  exact ensured

theorem Attempt.Explains.refuse_of_supply {report : Report} (supply : report.OfSupply) :
    (Attempt.refuse report : Attempt α).Explains OfSupply := refuse supply.classified supply

/-- Supply is one of the matters of resources. -/
theorem Attempt.Explains.of_supply {a : Attempt α} (explains : a.Explains OfSupply) :
    a.Explains OfResources :=
  explains.mono fun _ => OfSupply.ofResources

/-! ## Surveys -/

namespace Survey

variable {dimension : Dimension}

/-- A search among no resources is refused for lack of supply, and so is a given resource that does
not pass the check or cannot be used. -/
theorem eligible_explains (given : Option ResourceId) (slot : Slot) (usable : Resource → Bool)
    (capability : String) : (eligible given slot usable capability).Explains OfSupply := by
  unfold eligible
  cases given with
  | some id =>
    -- a resource that was asked for is checked, the others only filtered
    apply Attempt.Explains.check_bind
    · intro r
      simp only
      split
      · exact .pure _
      · exact .refuse_of_supply (Or.inl rfl)
    · exact fun reason kind => .refuse_of_supply (Or.inl kind)
  | none =>
    refine .bind .get fun s => ?_
    split
    · exact .refuse_of_supply (Or.inl rfl)
    · exact .pure _

/-- An examination adds a few reports, and takes none away on any of its ways. -/
theorem examine_recalls (id : ResourceId) : (examine slot dimension id).Recalls := by
  unfold examine
  refine .bind (.modify fun s => by simp) fun _ => ?_
  refine .bind (.modifyGet fun s => by simp) fun checked => ?_
  split
  · exact .bind (.modify fun s => by simp) fun _ =>
      .bind (.modify fun s => by simp) fun _ => .pure _
  · refine .bind (.ask _) fun used => ?_
    simp only
    split
    · exact .bind (.modify fun s => by simp) fun _ =>
        .bind (.modify fun s => by simp) fun _ => .pure _
    · refine .bind .get fun s => .bind (.ask _) fun candidate => ?_
      exact .bind (.modify fun s => by simp) fun _ =>
        .bind (.modify fun s => by simp) fun _ => .pure _

/-- By induction on the resources. -/
theorem examineAll_recalls (ids : List ResourceId) : (examineAll slot dimension ids).Recalls := by
  induction ids with
  | nil => exact .pure _
  | cons id ids ih => exact .bind (examine_recalls id) fun found => .bind ih fun others => .pure _

theorem available_recalls (ids : List ResourceId) : (available slot dimension ids).Recalls := by
  unfold available
  refine .bind (.modify fun s => by simp) fun _ => .bind (examineAll_recalls ids) fun cs => ?_
  exact .bind (.modify fun s => by simp) fun _ => .pure _

theorem candidates_recalls (given : Option ResourceId) (ids : List ResourceId) :
    (candidates given slot dimension ids).Recalls := by
  unfold candidates
  refine .bind (available_recalls ids) fun found => ?_
  split
  · exact .bind (.modify fun s => by simp) fun _ => .pure _
  · exact .pure _

end Survey

/-! ## Jobs -/

namespace Job

variable {job : Job}

/-- A job fails for a reason of its work, or since its slot lies outside the working interval. -/
theorem perform_cites {p : Report → Prop} {s : Session}
    (outside : ∀ interval, p (.slotOutsideWorkingInterval job.slot interval))
    (work : (job.work job.slot).Ensures (s.enter job.title) (fun _ t => (s.enter job.title).log
      <+: t.log) fun e t => (s.enter job.title).log <+: t.log ∧ e.Cites t p) :
    job.perform.Ensures s fun r t =>
      Attempt.Ends (fun _ t => s.log <+: t.log) (fun e t => s.log <+: t.log
        ∧ e.Cites t p) r.1 t := by
  have entered : s.log <+: (s.enter job.title).log := by simp
  have attempted := attempt_rule (fun _ => ⟨by simp, .fail _ rfl (outside _)⟩) work
  refine perform_rule (attempted.mono (fun _ _ grown => entered.trans grown) ?_)
  rintro e t ⟨grown, cites⟩
  -- what is rolled back are claims and reservations, the reports stay
  have kept : t.log <+: (t.leaveError.rollback s.savepoint).log := by simp
  exact ⟨entered.trans (grown.trans kept), cites.later kept⟩

/-- A job that is performed hands up the failure of its work, which explains itself already. -/
theorem run_explains (work : (job.work job.slot).Explains OfResources) :
    job.run.Explains OfResources :=
  fun s => run_rule (perform_cites (fun _ => nofun) (work (s.enter job.title)))

/-- The link that is made after the job adds no report. -/
theorem runUnder_explains (work : (job.work job.slot).Explains OfResources) (parent : Nat) :
    (job.runUnder parent).Explains OfResources := by
  unfold runUnder
  refine .bind (run_explains work) fun key => ?_
  exact .bind (.lift (.change Session.log_attach)) fun _ => .pure _

end Job

/-! ## Whole resources -/

namespace Exclusive

/-- A resource is refused because it does not pass the check, is no terminal, or is in use. -/
theorem allocate_explains (id : ResourceId) (label : Option String) (slot : Slot) :
    (allocate id label slot).Explains OfSupply := by
  unfold allocate
  apply Attempt.Explains.check_bind
  · intro r
    simp only
    split
    · exact .refuse_of_supply (Or.inl rfl)
    · refine .bind (.ask _) fun used => ?_
      split
      · exact .refuse_of_supply (Or.inr rfl)
      · exact .modifyGet fun s => by simp
  · exact fun reason kind => .refuse_of_supply (Or.inl kind)

theorem endpointJob_explains (id : ResourceId) (label : String) (slot : Slot) :
    (endpointJob id label slot).run.Explains OfResources :=
  Job.run_explains (allocate_explains id (some label) slot).of_supply

end Exclusive

/-! ## Aliases -/

namespace AliasSpec

variable (spec : AliasSpec)

/-- Whether a value is picked or not, reports are only added. -/
theorem pickValue_recalls (id : ResourceId) (provider : AliasProvider) :
    (spec.pickValue slot id provider).Recalls := by
  unfold pickValue
  refine .bind (.ask _) fun used => ?_
  split
  · split
    · exact .bind (.modify fun s => by simp) fun _ => .pure _
    · split
      · exact .bind (.modify fun s => by simp) fun _ => .pure _
      · exact .pure _
  · split
    · exact .pure _
    · exact .bind (.modify fun s => by simp) fun _ => .pure _

theorem reserve_recalls (id : ResourceId) (provider : AliasProvider) (value : String) :
    (spec.reserve slot id provider value).Recalls := by
  unfold reserve
  refine .bind (.modifyGet fun s => by simp) fun key =>
    .bind (.modifyGet fun s => by simp) fun child => ?_
  exact .bind (.change Session.log_attach) fun _ => .pure _

/-- By induction on the candidates: one without a value to give closes its report as an error and
the search goes on. -/
theorem tryAll_recalls (cs : List Candidate) : (spec.tryAll slot cs).Recalls := by
  induction cs with
  | nil => exact .pure _
  | cons c cs ih =>
    unfold tryAll
    refine .bind .get fun s => ?_
    split
    · exact ih
    · refine .bind (.modify fun s => by simp) fun _ =>
        .bind (spec.pickValue_recalls _ _) fun found => ?_
      split
      · exact .bind (.modify fun s => by simp) fun _ => ih
      · refine .bind (.modify fun s => by simp) fun _ => ?_
        exact .bind (spec.reserve_recalls _ _ _) fun key => .pure _

/-- The reason for having found no alias is either that no provider accepts the value, which is a
capability mismatch, or that none has one to give. -/
theorem ofSupply_reason (g : Registry) (ids : List ResourceId) : (spec.reason g ids).OfSupply := by
  unfold reason
  split
  · split
    · exact Or.inl rfl
    · exact Or.inr rfl
  · exact Or.inr rfl

/-- Trying candidates cannot fail, so the refusals are those of the eligible resources and the
reason at the end. -/
theorem allocate_explains (target : Option ResourceId) (slot : Slot) :
    (spec.allocate target slot).Explains OfSupply := by
  unfold allocate
  refine .bind (Survey.eligible_explains _ _ _ _) fun ids => ?_
  refine .bind (.lift (Survey.candidates_recalls _ ids)) fun cs => ?_
  refine .bind (.lift (spec.tryAll_recalls cs)) fun found => ?_
  split
  · exact .pure _
  · exact .bind .get fun s => .refuse_of_supply (spec.ofSupply_reason s.registry ids)

end AliasSpec

/-! ## Rooms -/

namespace RoomSpec

variable (spec : RoomSpec)

/-- By induction on the aliases: the first one that cannot be had is the cause. -/
theorem addAliases_explains (slot : Slot) (host : ResourceId) (room : Nat)
    (specs : List AliasSpec) :
    (addAliases slot host room specs).Explains OfResources := by
  induction specs with
  | nil => exact .pure _
  | cons first specs ih =>
    exact .bind (Job.runUnder_explains (first.allocate_explains (some host) slot).of_supply room)
      fun _ => ih

/-- A room may be placed, may lack licenses, or may be taken back because an alias has failed. The
reports of the failed alias stay in any case. -/
theorem place_recalls (c : Candidate) : (spec.place slot c).Recalls := by
  unfold place
  refine .bind (.modify fun s => by simp) fun _ => .bind (.ask _) fun used => ?_
  simp only
  split
  · exact .bind (.modify fun s => by simp) fun _ =>
      .bind (.modify fun s => by simp) fun _ => .pure _
  · refine .bind .get fun s => .bind (.modifyGet fun s => by simp) fun room => ?_
    refine .bind (.outcome (addAliases_explains slot c.resource room spec.aliases)) fun done => ?_
    split
    · exact .bind (.modify fun s => by simp) fun _ =>
        .bind (.modify fun s => by simp) fun _ => .pure _
    · exact .bind (.modify fun s => by simp) fun _ => .pure _

/-- By induction on the candidates. -/
theorem tryAll_recalls (cs : List Candidate) : (spec.tryAll slot cs).Recalls := by
  induction cs with
  | nil => exact .pure _
  | cons c cs ih =>
    refine .bind (spec.place_recalls c) fun found => ?_
    split
    · exact .pure _
    · exact ih

/-- Rooms are tried without failing, so what is left is that no candidate will do. -/
theorem allocate_explains (slot : Slot) : (spec.allocate slot).Explains OfSupply := by
  unfold allocate
  refine .bind (Survey.eligible_explains _ _ _ _) fun ids => ?_
  refine .bind (.lift (Survey.candidates_recalls _ ids)) fun cs => ?_
  refine .bind (.lift (spec.tryAll_recalls cs)) fun found => ?_
  split
  · exact .pure _
  · exact .refuse_of_supply (Or.inr rfl)

theorem job_explains (slot : Slot) : (spec.job slot).run.Explains OfResources :=
  Job.run_explains (spec.allocate_explains slot).of_supply

end RoomSpec

/-! ## Recordings -/

namespace RecordingSpec

variable (spec : RecordingSpec)

theorem reserve_recalls (id : ResourceId) : (spec.reserve slot id).Recalls :=
  .modifyGet fun s => by simp

/-- By induction on the resources, each of which is checked when its turn comes. -/
theorem tryUnlicensed_recalls (ids : List ResourceId) : (spec.tryUnlicensed slot ids).Recalls := by
  induction ids with
  | nil => exact .pure _
  | cons id ids ih =>
    refine .bind (.modifyGet fun s => by simp) fun checked => ?_
    split
    · exact .bind (spec.reserve_recalls id) fun key => .pure _
    · exact .bind (.modify fun s => by simp) fun _ => ih

/-- By induction on the candidates, of which the first one that has enough licenses left is
taken. -/
theorem tryAll_recalls (cs : List Candidate) : (spec.tryAll slot cs).Recalls := by
  induction cs with
  | nil => exact .pure _
  | cons c cs ih =>
    unfold tryAll
    split
    · exact .bind (.modify fun s => by simp) fun _ => ih
    · exact .bind (spec.reserve_recalls _) fun key => .pure _

theorem place_recalls (slot : Slot) (ids : List ResourceId) : (spec.place slot ids).Recalls := by
  unfold place
  split
  · exact .bind (Survey.candidates_recalls _ ids) fun cs => spec.tryAll_recalls cs
  · exact spec.tryUnlicensed_recalls ids

/-- The request is malformed just if the meeting does not last as long as the slot. -/
theorem allocate_explains (slot : Slot) : (spec.allocate slot).Explains fun report =>
    if spec.executable.slot.contains slot then
      report.OfSupply else report.failureKind? = some .invalidRequest := by
  unfold allocate
  split
  · refine .bind (Survey.eligible_explains _ _ _ _) fun ids => ?_
    refine .bind (.lift (spec.place_recalls slot ids)) fun found => ?_
    split
    · exact .pure _
    · exact .refuse_of_supply (Or.inr rfl)
  · exact .refuse rfl rfl

end RecordingSpec

end Conference
