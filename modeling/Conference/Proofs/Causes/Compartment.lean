import Conference.Allocation.Compartment
import Conference.Proofs.Causes.Kinds
import Conference.Work

/-!
# Why participants are not brought together

A participant that is not placed fails for a reason of its resources. That no room can bridge the
participants is said just if there is no set of technologies to try; a bridge that fails otherwise
fails for the reason of the last room that was tried.
-/

namespace Conference.Compartment

open Report (OfResources)

variable {slot : Slot} {s : Session}

/-! ## Participants -/

theorem tryTerminals_recalls (cs : List Candidate) : (tryTerminals slot cs).Recalls := by
  induction cs with
  | nil => exact .pure _
  | cons c cs ih =>
    unfold tryTerminals
    refine .bind (.outcome (Exclusive.endpointJob_explains c.resource c.resource.text slot))
      fun r => ?_
    cases r with
    | ok key => exact .bind .get fun s => .pure _
    | error e => exact ih

theorem refuseLookup_explains {report : Report} (classified : report.failureKind?.isSome)
    (of_resources : OfResources report) :
    (refuseLookup report : Attempt Endpoint).Explains OfResources := by
  intro s
  unfold refuseLookup
  apply Attempt.Ensures.modifyGet_bind
  apply Attempt.Ensures.modify_bind
  apply Attempt.Ensures.throw
  exact ⟨by simp, (Failure.Cites.fail s classified of_resources).later (by simp)⟩

theorem lookUp_explains (technologies : TechnologySet) :
    (lookUp slot technologies).Explains OfResources := by
  unfold lookUp
  refine .bind (.modify fun s => by simp) fun _ => .bind .get fun s => ?_
  split
  · exact refuseLookup_explains rfl nofun
  · refine .bind (.lift (Survey.available_recalls _)) fun cs => ?_
    refine .bind (.lift (tryTerminals_recalls cs)) fun found => ?_
    split
    · exact .bind (.modify fun s => by simp) fun _ => .pure _
    · exact refuseLookup_explains rfl nofun

theorem place_explains (index : Nat) (p : Participant) :
    (place slot index p).Explains OfResources := by
  cases p with
  | existing id =>
    exact .bind (Exclusive.endpointJob_explains id id.text slot) fun key =>
      .bind .get fun s => .pure _
  | lookup technologies => exact lookUp_explains technologies
  | external technologies count => exact .bind (.modifyGet fun s => by simp) fun key => .pure _

theorem placeAll_explains (participants : List Participant) :
    ∀ index : Nat, (placeAll slot index participants).Explains OfResources := by
  induction participants with
  | nil => exact fun _ => .pure _
  | cons p ps ih =>
    exact fun index => .bind (place_explains index p) fun e =>
      .bind (ih (index + 1)) fun es => .pure _

/-! ## Bridges -/

/-- There is a failure, and it cites a report about resources. -/
def Blames (last : Option Failure) (s : Session) : Prop :=
  ∃ e, last = some e ∧ e.Cites s OfResources

/-- By induction on the sets that are left: once one has been tried, there is a failure to hand
over. -/
theorem tryBridges_blames (participants : Nat) (sets : List TechnologySet) :
    ∀ (last : Option Failure) {s : Session}, sets ≠ [] ∨ Blames last s →
      (tryBridges slot participants last sets).Ensures s fun found t =>
        s.log <+: t.log ∧ ∀ last', found = .error last' → Blames last' t := by
  induction sets with
  | nil =>
    intro last s given
    refine Action.Ensures.pure ⟨List.prefix_refl _, ?_⟩
    rintro _ ⟨⟩
    exact given.resolve_left fun never => never rfl
  | cons technologies sets ih =>
    intro last s _
    unfold tryBridges
    apply Action.Ensures.modify_bind
    let spec : RoomSpec := ⟨participants, technologies, none, []⟩
    have opened : s.log <+: (s.openReport (.bridgingWithRoom technologies)).log := by simp
    have job := spec.job_explains slot (s.openReport (.bridgingWithRoom technologies))
    refine Action.Ensures.bind (Action.Ensures.outcome job) ?_
    intro r t done
    cases r with
    | ok key =>
      apply Action.Ensures.modify_bind
      apply Action.Ensures.get_bind
      exact Action.Ensures.pure ⟨opened.trans done, fun _ never => nomatch never⟩
    | error e =>
      apply Action.Ensures.modify_bind
      -- from here on there is a failure to hand over, even if no set is left
      have kept : t.log <+: t.closeError.log := by simp
      refine (ih (some e) (Or.inr ⟨e, rfl, done.2.later kept⟩)).mono ?_
      rintro found u ⟨grown, blamed⟩
      exact ⟨opened.trans (done.1.trans (kept.trans grown)), blamed⟩

/-- A bridge fails either since there is nothing to try, and says so, or since each room that it
tries fails. -/
theorem bridge_cites (slot : Slot) (es : List Endpoint) (s : Session) :
    (bridge slot es).Ensures s (fun _ t => s.log <+: t.log) fun e t => s.log <+: t.log
      ∧ (bridgeable s.registry es = [] →
        e.Cites t (· = .noBridgingRoom (Selection.join (es.map (·.technologies)))))
      ∧ (bridgeable s.registry es ≠ [] → e.Cites t OfResources) := by
  unfold bridge
  simp only
  apply Attempt.Ensures.get_bind
  split
  · rename_i nothing
    exact Attempt.Ensures.refuse
      ⟨by simp, fun _ => .fail s rfl rfl, fun sets => absurd nothing sets⟩
  · rename_i some_set
    apply Attempt.Ensures.ask_bind
    intro participants _
    refine Attempt.Ensures.bind
      (Attempt.Ensures.lift (tryBridges_blames participants _ none (Or.inl some_set))) ?_
    rintro found t ⟨grown, blamed⟩
    split
    · exact Attempt.Ensures.pure grown
    · obtain ⟨_, ⟨⟩, cites⟩ := blamed _ rfl
      exact Attempt.Ensures.throw ⟨grown, fun nothing => absurd nothing some_set, fun _ => cites⟩
    · -- when sets were tried, the last failure is at hand
      obtain ⟨_, never, -⟩ := blamed _ rfl
      cases never

/-! ## Connections -/

/-- The report is not about participants that turn out unconnected. -/
def NotUnconnected (report : Report) : Prop := ∀ labels, report ≠ .participantsNotConnected labels

theorem notUnconnected_of_resources {report : Report} (of_resources : OfResources report) :
    NotUnconnected report := by
  rintro labels rfl
  exact of_resources rfl

theorem connectDirectly_recalls (es : List Endpoint) : (connectDirectly es).Recalls := by
  unfold connectDirectly
  split
  · refine .bind (.modify fun s => by simp) fun _ => ?_
    split
    · exact .bind (.modify fun s => by simp) fun _ => .pure _
    · exact .bind (.modify fun s => by simp) fun _ =>
        .bind (.modify fun s => by simp) fun _ => .pure _
  · exact .pure _

/-- A compartment that is not connected has no room to connect it. -/
theorem connect_explains (es : List Endpoint) : (connect slot es).Explains NotUnconnected := by
  have bridged : (bridge slot es).Explains NotUnconnected := by
    intro s
    refine (bridge_cites slot es s).mono (fun _ _ grown => grown) ?_
    rintro e t ⟨grown, nothing, blames⟩
    refine ⟨grown, ?_⟩
    -- without a technology to bridge in no room is tried at all
    by_cases sets : bridgeable s.registry es = []
    · refine (nothing sets).mono ?_
      rintro _ rfl labels never
      cases never
    · exact (blames sets).mono fun _ => notUnconnected_of_resources
  unfold connect
  refine .bind (.lift (connectDirectly_recalls es)) fun found => ?_
  split
  · exact .pure _
  · exact .bind bridged fun b => .bind .get fun s => .pure _

theorem attachAll_recalls (parent : Nat) (keys : List Nat) : (attachAll parent keys).Recalls := by
  induction keys with
  | nil => exact .pure _
  | cons key keys ih => exact .bind (.change Session.log_attach) fun _ => ih

/-- Whatever keeps a compartment from being made, there is a report that says so and stands for the
kind of failure. -/
theorem allocate_explains (participants : List Participant) (slot : Slot) :
    (allocate participants slot).Explains fun _ => True := by
  unfold allocate
  simp only
  split
  · exact .refuse rfl trivial
  · refine .bind ((placeAll_explains participants 0).mono fun _ _ => trivial) fun es => ?_
    refine .bind ((connect_explains es).mono fun _ _ => trivial) fun plan => ?_
    -- verifying has a failure of its own, which is classified
    have checked : (verify es plan.2 plan.1).Explains fun _ => True := by
      unfold verify
      simp only
      split
      · exact .pure _
      · exact .refuse rfl trivial
    refine .bind checked fun _ => .bind (.modifyGet fun s => by simp) fun key => ?_
    exact .bind (.lift (attachAll_recalls _ _)) fun _ => .pure _

end Conference.Compartment

/-- All kinds of work explain their failures. -/
theorem Conference.Work.explains (work : Work) (slot : Slot) :
    ((work.job slot).work (work.job slot).slot).Explains fun _ => True := by
  cases work with
  | resource id => exact (Exclusive.allocate_explains id none slot).mono fun _ _ => trivial
  | endpoint id label =>
    exact (Exclusive.allocate_explains id (some label) slot).mono fun _ _ => trivial
  | room spec => exact (spec.allocate_explains slot).mono fun _ _ => trivial
  | recording spec => exact (spec.allocate_explains slot).mono fun _ _ => trivial
  | dialAlias spec target => exact (spec.allocate_explains target slot).mono fun _ _ => trivial
  | compartment participants => exact Compartment.allocate_explains participants slot
