import Conference.Proofs.Allocation.Compartment
import Conference.Proofs.Causes.Kinds

/-!
# The kinds of failures

A job outside the working interval fails since the request is malformed. Inside it, a search for a
resource fails for a lack of supply only, and a compartment also for a lack of connections. Since
the rooms that a compartment tries and the terminals that it looks up are jobs for the same slot,
they are inside the working interval if the compartment is.
-/

namespace Conference

variable {α : Type} {slot : Slot} {s : Session}

/-- The kind says that resources lack what is asked for, or are in use. -/
def FailureKind.OfSupply (kind : FailureKind) : Prop :=
  kind = .capabilityMismatch ∨ kind = .capacityExhausted

namespace FailureKind.OfSupply

variable {kind : FailureKind}

theorem ne_invalidRequest (supply : kind.OfSupply) : kind ≠ .invalidRequest := by
  rintro rfl
  rcases supply with never | never <;> cases never

theorem ne_connectivityInfeasible (supply : kind.OfSupply) : kind ≠ .connectivityInfeasible := by
  rintro rfl
  rcases supply with never | never <;> cases never

end FailureKind.OfSupply

/-- Each failure of the attempt, from `s`, is of a kind that satisfies `p`. -/
abbrev Attempt.FailsBy (a : Attempt α) (s : Session) (p : FailureKind → Prop) : Prop :=
  a.Ensures s (fun _ _ => True) fun e _ => p e.kind

namespace Attempt.FailsBy

variable {p q : FailureKind → Prop}

theorem mono {a : Attempt α} (h : a.FailsBy s p) (imp : ∀ kind, p kind → q kind) : a.FailsBy s q :=
  Attempt.Ensures.mono h (fun _ _ => id) fun e _ => imp e.kind

/-- What the causes of failures say settles their kinds. -/
theorem of_explains {a : Attempt α} {cited : Report → Prop} (explains : a.Explains cited)
    (imp : ∀ report kind, report.failureKind? = some kind → cited report → p kind) :
    a.FailsBy s p := by
  refine Attempt.Ensures.mono (explains s) (fun _ _ _ => trivial) ?_
  rintro e t ⟨-, report, -, kind, cited⟩
  exact imp report e.kind kind cited

/-- An attempt that explains itself by supply fails by supply. -/
theorem of_supply {a : Attempt α} (explains : a.Explains Report.OfSupply) :
    a.FailsBy s FailureKind.OfSupply := by
  refine of_explains explains fun report kind own supply => ?_
  unfold Report.OfSupply at supply
  rw [own] at supply
  exact supply.imp Option.some.inj Option.some.inj

/-- A refusal fails by what its report stands for. -/
theorem refuse {report : Report} {kind : FailureKind} (own : report.failureKind? = some kind)
    (h : p kind) :
    (Attempt.refuse report : Attempt α).FailsBy s p := by
  apply Attempt.Ensures.refuse
  show p (report.failureKind?.getD .capacityExhausted)
  rw [own]
  exact h

theorem lift {a : Action α} : (liftM a : Attempt α).FailsBy s p :=
  Attempt.Ensures.lift fun _ _ _ => trivial

end Attempt.FailsBy

open FailureKind (OfSupply)

namespace Job

variable {job : Job}

/-- Inside the working interval a job fails just as its work does. -/
theorem attempt_rule_within (within : s.ledger.workingInterval.contains job.slot)
    {ok : Nat → Session → Prop} {failed : Failure → Session → Prop}
    (work : (job.work job.slot).Ensures s ok failed) :
    job.attempt.Ensures s ok failed := by
  intro r t run
  rw [Action.outcome, attempt_eq, if_pos within] at run
  exact work r t run

/-- A job within the working interval gets to its work, and fails as the work does. -/
theorem perform_failsBy (within : s.ledger.workingInterval.contains job.slot)
    {p : FailureKind → Prop} (work : (job.work job.slot).FailsBy (s.enter job.title) p) :
    job.perform.Ensures s fun r t =>
      Attempt.Ends (fun _ _ => True) (fun e _ => p e.kind) r.1 t := by
  have inside : (s.enter job.title).ledger.workingInterval.contains job.slot := within
  exact perform_rule (attempt_rule_within inside work)

/-- So does the job with its report closed. -/
theorem run_failsBy (within : s.ledger.workingInterval.contains job.slot) {p : FailureKind → Prop}
    (work : (job.work job.slot).FailsBy (s.enter job.title) p) : job.run.FailsBy s p :=
  run_rule (perform_failsBy within work)

end Job

/-! ## Participants -/

namespace Compartment

/-- The slot stays inside the working interval while trees are built. -/
theorem contains_of_builds {t : Session} {made : List (List Nat)} (builds : s.Builds t made)
    (within : s.ledger.workingInterval.contains slot) : t.ledger.workingInterval.contains slot := by
  rw [builds.agrees.workingInterval]
  exact within

/-- An endpoint that is named fails to be placed for lack of supply only. -/
theorem endpointJob_failsBy (within : s.ledger.workingInterval.contains slot) (id : ResourceId)
    (label : String) :
    (Exclusive.endpointJob id label slot).run.FailsBy s OfSupply :=
  Job.run_failsBy within (.of_supply (Exclusive.allocate_explains id (some label) slot))

/-- A lookup that is given up fails by what its report stands for. -/
theorem refuseLookup_failsBy {report : Report} {kind : FailureKind}
    (own : report.failureKind? = some kind) (supply : kind.OfSupply) :
    (refuseLookup report : Attempt Endpoint).FailsBy s OfSupply := by
  unfold refuseLookup
  apply Attempt.Ensures.modifyGet_bind
  apply Attempt.Ensures.modify_bind
  apply Attempt.Ensures.throw
  show (report.failureKind?.getD .capacityExhausted).OfSupply
  rw [own]
  exact supply

/-- Looking for an endpoint fails when no resource will do, or when each that would is in use. -/
theorem lookUp_failsBy (technologies : TechnologySet) :
    (lookUp slot technologies).FailsBy s OfSupply := by
  unfold lookUp
  apply Attempt.Ensures.modify_bind
  apply Attempt.Ensures.get_bind
  split
  · exact refuseLookup_failsBy rfl (Or.inl rfl)
  · refine Attempt.Ensures.bind Attempt.FailsBy.lift fun cs t _ => ?_
    refine Attempt.Ensures.bind Attempt.FailsBy.lift fun found u _ => ?_
    -- no candidate could be taken
    cases found with
    | some endpoint =>
      apply Attempt.Ensures.modify_bind
      exact Attempt.Ensures.pure trivial
    | none => exact refuseLookup_failsBy rfl (Or.inr rfl)

/-- Placing one participant fails for lack of supply only. External endpoints are always placed. -/
theorem place_failsBy (within : s.ledger.workingInterval.contains slot) (index : Nat)
    (p : Participant) :
    (place slot index p).FailsBy s OfSupply := by
  cases p with
  | existing id =>
    refine Attempt.Ensures.bind (endpointJob_failsBy within id id.text) fun key t _ => ?_
    apply Attempt.Ensures.get_bind
    exact Attempt.Ensures.pure trivial
  | lookup technologies => exact lookUp_failsBy technologies
  | external technologies count =>
    apply Attempt.Ensures.modifyGet_bind
    exact Attempt.Ensures.pure trivial

/-- By induction on the participants. The working interval is the same for each of them. -/
theorem placeAll_failsBy (participants : List Participant) :
    ∀ (index : Nat) {s : Session}, s.ledger.workingInterval.contains slot →
      (placeAll slot index participants).FailsBy s OfSupply := by
  induction participants with
  | nil => exact fun _ _ _ => Attempt.Ensures.pure trivial
  | cons p ps ih =>
    intro index s within
    have placed := ((place_failsBy within index p).and (place_ensures slot index p s)).mono
      (fun _ _ h => h.2) fun _ _ h => h.1
    refine Attempt.Ensures.bind placed ?_
    rintro e t ⟨keys, builds⟩
    refine Attempt.Ensures.bind (ih (index + 1) (contains_of_builds builds within)) fun es u _ => ?_
    exact Attempt.Ensures.pure trivial

/-! ## Connections -/

/-- By induction on the sets that are left: rooms fail for a lack of supply, the last one too. -/
theorem tryBridges_failsBy (participants : Nat) (sets : List TechnologySet) :
    ∀ (last : Option Failure) {s : Session}, s.ledger.workingInterval.contains slot →
      (∀ e, last = some e → e.kind.OfSupply) →
      (tryBridges slot participants last sets).Ensures s fun found _ =>
        ∀ e, found = .error (some e) → e.kind.OfSupply := by
  induction sets with
  | nil =>
    intro last s _ given
    apply Action.Ensures.pure
    rintro e ⟨⟩
    exact given e rfl
  | cons technologies sets ih =>
    intro last s within _
    unfold tryBridges
    apply Action.Ensures.modify_bind
    let spec : RoomSpec := ⟨participants, technologies, none, []⟩
    let opened := s.openReport (.bridgingWithRoom technologies)
    have fails : (spec.job slot).run.FailsBy opened OfSupply :=
      Job.run_failsBy within (.of_supply (spec.allocate_explains slot))
    have builds := Job.run_ensures (spec.orderly_job slot) opened
    refine Action.Ensures.bind (Action.Ensures.outcome (fails.and builds)) ?_
    intro r t done
    cases r with
    | ok key =>
      apply Action.Ensures.modify_bind
      apply Action.Ensures.get_bind
      apply Action.Ensures.pure
      rintro e ⟨⟩
    | error e =>
      apply Action.Ensures.modify_bind
      have still : t.closeError.ledger.workingInterval.contains slot := by
        rw [t.quiet_closeError.ledger]
        exact contains_of_builds done.2 within
      -- the failure is kept as the last one, and is one of supply
      refine ih (some e) still ?_
      rintro _ ⟨⟩
      exact done.1

/-- The kind says that resources lack what is asked for or are in use, or that the participants
cannot be connected. -/
def Plain (kind : FailureKind) : Prop := kind.OfSupply ∨ kind = .connectivityInfeasible

/-- Bridging fails for lack of rooms or because the endpoints cannot be connected. -/
theorem bridge_failsBy (within : s.ledger.workingInterval.contains slot) (es : List Endpoint) :
    (bridge slot es).FailsBy s Plain := by
  unfold bridge
  simp only
  apply Attempt.Ensures.get_bind
  split
  · exact Attempt.FailsBy.refuse rfl (Or.inr rfl)
  · apply Attempt.Ensures.ask_bind
    intro participants _
    -- no room has been tried yet, so there is no failure to account for
    refine Attempt.Ensures.bind
      (Attempt.Ensures.lift (tryBridges_failsBy participants _ none within nofun)) ?_
    intro found t supply
    split
    · exact Attempt.Ensures.pure trivial
    · exact Attempt.Ensures.throw (Or.inl (supply _ rfl))
    · exact Attempt.FailsBy.refuse rfl (Or.inr rfl)

/-- Connecting directly cannot fail, so only the bridge has to be looked at. -/
theorem connect_failsBy (within : s.ledger.workingInterval.contains slot) (es : List Endpoint) :
    (connect slot es).FailsBy s Plain := by
  unfold connect
  refine Attempt.Ensures.bind (Attempt.Ensures.lift (connectDirectly_quiet es s))
    fun found t quiet => ?_
  split
  · exact Attempt.Ensures.pure trivial
  · have still : t.ledger.workingInterval.contains slot := by
      rw [quiet.ledger]
      exact within
    refine Attempt.Ensures.bind (bridge_failsBy still es) fun b u _ => ?_
    apply Attempt.Ensures.get_bind
    exact Attempt.Ensures.pure trivial

/-- A plan that does not hold means that the endpoints cannot be connected. -/
theorem verify_failsBy (es : List Endpoint) (b : Option Bridge) (cs : List Connection) :
    (verify es b cs).FailsBy s Plain := by
  unfold verify
  simp only
  split
  · exact Attempt.Ensures.pure trivial
  · exact Attempt.FailsBy.refuse rfl (Or.inr rfl)

/-- The kind is none of a malformed request, and one of missing connections only if all participants
get placed. -/
def Classified (participants : List Participant) (slot : Slot) (s : Session)
    (kind : FailureKind) : Prop :=
  kind ≠ .invalidRequest
    ∧ (kind = .connectivityInfeasible → ∃ es t, placeAll slot 0 participants s = .ok (.ok es, t))

/-- With two endpoints or more, a compartment fails for lack of supply, or because endpoints that
are all placed cannot be connected. -/
theorem allocate_failsBy (within : s.ledger.workingInterval.contains slot)
    {participants : List Participant} (enough : 2 ≤ endpointCount participants) :
    (allocate participants slot).FailsBy s (Classified participants slot s) := by
  unfold allocate
  simp only [Nat.not_lt.2 enough, if_false]
  -- the run that places the participants is kept for the failures after it
  have placed : (placeAll slot 0 participants).Ensures s
      (fun es t => s.BuildsTrees (es.map (·.key)) t
        ∧ placeAll slot 0 participants s = .ok (.ok es, t))
      fun e _ => Classified participants slot s e.kind := by
    intro r t run
    have ends :=
      ((placeAll_failsBy participants 0 within).and (placeAll_ensures participants 0 s)) r t run
    cases r with
    | ok es => exact ⟨ends.2, run⟩
    | error e =>
      have supply : e.kind.OfSupply := ends.1
      exact ⟨supply.ne_invalidRequest, fun never => absurd never supply.ne_connectivityInfeasible⟩
  refine Attempt.Ensures.bind placed ?_
  rintro es t ⟨⟨_, builds, -⟩, run⟩
  -- after the placement each failure is plain, and the run that is kept says what has been placed
  have late (kind : FailureKind) (plain : Plain kind) : Classified participants slot s kind := by
    refine ⟨?_, fun _ => ⟨es, t, run⟩⟩
    rcases plain with supply | rfl
    · exact supply.ne_invalidRequest
    · nofun
  refine Attempt.Ensures.bind ((connect_failsBy (contains_of_builds builds within) es).mono late)
    fun plan u _ => ?_
  refine Attempt.Ensures.bind ((verify_failsBy es plan.2 plan.1).mono late) fun _ v _ => ?_
  apply Attempt.Ensures.modifyGet_bind
  refine Attempt.Ensures.bind Attempt.FailsBy.lift fun _ w _ => ?_
  exact Attempt.Ensures.pure trivial

end Compartment

end Conference
