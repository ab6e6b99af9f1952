import Conference.Allocation.Compartment
import Conference.Proofs.Told.Kinds
import Conference.Work

/-!
# What compartments tell

Where a participant is looked up the scope of the search ends on each way out, by a failure as well.
A bridge hands over the failure of the last room that it has tried, after the scope of that room has
been closed: the errors that lead to its cause stay in place while further rooms are tried.
-/

namespace Conference.Compartment

variable {slot : Slot}

/-! ## Participants -/

/-- The endpoint job tells what the allocation of a single resource does. -/
theorem endpointJob_tells (id : ResourceId) (label : String) :
    (Exclusive.endpointJob id label slot).run.Tells :=
  Job.run_tells (Exclusive.allocate_tells id (some label) slot)

/-- The candidates are tried one after the other, each in a job of its own. -/
theorem tryTerminals_tells (cs : List Candidate) : (tryTerminals slot cs).Tells := by
  induction cs with
  | nil => exact .pure _
  | cons c cs ih =>
    unfold tryTerminals
    refine .bind (.outcome (endpointJob_tells c.resource c.resource.text)) fun r => ?_
    cases r with
    | ok key => exact .bind .get fun s => .pure _
    | error e => exact ih

/-- A search that is refused ends its own scope as an error. -/
theorem refuseLookup_shuts (report : Report) : (refuseLookup report : Attempt Endpoint).Shuts := by
  intro s t title sound inner
  have opened := inner.stays_scoped (Session.scoped_openReport sound title)
  unfold refuseLookup
  apply Attempt.Ensures.modifyGet_bind
  apply Attempt.Ensures.modify_bind
  apply Attempt.Ensures.throw
  exact ((Failure.Told.fail opened report).after inner).closeError sound

/-- The report of the lookup is closed on each way out of it. -/
theorem lookUp_tells (technologies : TechnologySet) : (lookUp slot technologies).Tells := by
  unfold lookUp
  refine .scope (.bind .get fun s => ?_)
  split
  · exact refuseLookup_shuts _
  · refine .bind (Survey.available_tells _) fun cs => .bind (tryTerminals_tells cs) fun found => ?_
    split
    · exact .closeReport (.pure _)
    · exact refuseLookup_shuts _

/-- Whichever kind of participant it is. -/
theorem place_tells (index : Nat) (p : Participant) : (place slot index p).Tells := by
  cases p with
  | existing id => exact .bind (endpointJob_tells id id.text) fun key => .bind .get fun s => .pure _
  | lookup technologies => exact lookUp_tells technologies
  | external technologies count =>
    exact .bind (.modifyGet fun s => s.tells_create _) fun key => .pure _

/-- By induction on the participants. -/
theorem placeAll_tells (participants : List Participant) :
    ∀ index : Nat, (placeAll slot index participants).Tells := by
  induction participants with
  | nil => exact fun _ => .pure _
  | cons p ps ih =>
    exact fun index => .bind (place_tells index p) fun e => .bind (ih (index + 1)) fun es => .pure _

/-! ## Bridges -/

/-- Whether a technology is found for the link, or the report is closed with an error. -/
theorem connectDirectly_tells (es : List Endpoint) : (connectDirectly es).Tells := by
  unfold connectDirectly
  split
  · refine .scope ?_
    split
    · exact .closeReport (.pure _)
    · exact .bind (.addError _) fun _ => .closeError (.pure _)
  · exact .pure _

/-- By induction on the sets that are left. Where a failure is handed over all its errors are in
place. -/
theorem tryBridges_tells (participants : Nat) (sets : List TechnologySet) {base : Session} :
    ∀ (last : Option Failure) {s : Session}, s.Scoped → base.Tells s → (∀ e ∈ last, e.Told base s) →
      (tryBridges slot participants last sets).Ensures s fun found t =>
        base.Tells t ∧ ∀ e, found = .error (some e) → e.Told base t := by
  induction sets with
  | nil =>
    intro last s _ before told
    refine Action.Ensures.pure ⟨before, ?_⟩
    rintro e ⟨⟩
    exact told e rfl
  | cons technologies sets ih =>
    intro last s sound before _
    unfold tryBridges
    apply Action.Ensures.modify_bind
    let spec : RoomSpec := ⟨participants, technologies, none, []⟩
    have opened := Session.scoped_openReport sound (.bridgingWithRoom technologies)
    have work : ((spec.job slot).work (spec.job slot).slot).Tells := spec.allocate_tells slot
    have job := Job.run_tells work _ opened
    refine Action.Ensures.bind (Action.Ensures.outcome job) ?_
    intro r t done
    cases r with
    | ok key =>
      apply Action.Ensures.modify_bind
      apply Action.Ensures.get_bind
      have inner : (s.openReport (.bridgingWithRoom technologies)).Tells t := done
      exact Action.Ensures.pure ⟨before.trans (inner.closeReport sound),
        fun _ never => nomatch never⟩
    | error e =>
      apply Action.Ensures.modify_bind
      have told : e.Told s t.closeError := Failure.Told.closeError sound done
      -- the failure that is handed on is told within the scope that is closed now
      refine ih (some e) (told.1.stays_scoped sound) (before.trans told.1) ?_
      rintro _ ⟨⟩
      exact told.after before

/-- The failure of the last room tried is handed over, so it has to have been told. -/
theorem bridge_tells (es : List Endpoint) : (bridge slot es).Tells := by
  unfold bridge
  refine .bind .get fun s => ?_
  split
  · exact .refuse _
  · refine .bind (.ask _) fun participants => ?_
    intro s sound
    -- no room has been tried yet, so there is no failure to hand over
    have tried (sets : List TechnologySet) : (tryBridges slot participants none sets).Ensures s _ :=
      tryBridges_tells participants sets none sound (.refl s) nofun
    refine Attempt.Ensures.bind (Attempt.Ensures.lift (tried _)) ?_
    rintro found t ⟨before, told⟩
    split
    · exact Attempt.Ensures.pure before
    · exact Attempt.Ensures.throw (told _ rfl)
    · exact Attempt.Ensures.refuse ((Failure.Told.fail (before.stays_scoped sound) _).after before)

/-- A bridge is only sought where no direct connection was made. -/
theorem connect_tells (es : List Endpoint) : (connect slot es).Tells := by
  unfold connect
  refine .bind (.lift (connectDirectly_tells es)) fun found => ?_
  split
  · exact .pure _
  · exact .bind (bridge_tells es) fun b => .bind .get fun s => .pure _

/-- A disconnected participant is the one thing it may refuse for. -/
theorem verify_tells (es : List Endpoint) (room : Option Bridge) (connections : List Connection) :
    (verify es room connections).Tells := by
  unfold verify
  simp only
  split
  · exact .pure _
  · exact .refuse _

/-- Attaching tells nothing. -/
theorem attachAll_tells (parent : Nat) (keys : List Nat) : (attachAll parent keys).Tells := by
  induction keys with
  | nil => exact .pure _
  | cons key keys ih => exact .bind (.change Session.tells_attach) fun _ => ih

/-- Each step of the allocation tells no more than its failures. -/
theorem allocate_tells (participants : List Participant) (slot : Slot) :
    (allocate participants slot).Tells := by
  unfold allocate
  simp only
  split
  · exact .refuse _
  · refine .bind (placeAll_tells participants 0) fun es => .bind (connect_tells es) fun plan => ?_
    refine .bind (verify_tells es plan.2 plan.1) fun _ =>
      .bind (.modifyGet fun s => s.tells_create _) fun key => ?_
    exact .bind (.lift (attachAll_tells _ _)) fun _ => .pure _

end Conference.Compartment

/-- All kinds of work tell what they do. -/
theorem Conference.Work.tells (work : Work) (slot : Slot) :
    ((work.job slot).work (work.job slot).slot).Tells := by
  cases work with
  | resource id => exact Exclusive.allocate_tells id none slot
  | endpoint id label => exact Exclusive.allocate_tells id (some label) slot
  | room spec => exact spec.allocate_tells slot
  | recording spec => exact spec.allocate_tells slot
  | dialAlias spec target => exact spec.allocate_tells target slot
  | compartment participants => exact Compartment.allocate_tells participants slot
