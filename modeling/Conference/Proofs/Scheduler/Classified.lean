import Conference.Proofs.Causes.Classified
import Conference.Proofs.Scheduler.Accounted

/-!
# Failures are classified

Each refusal is of one of four kinds, and the kind can be told from the request and the resources. A
malformed request is one that can never be met, whatever resources there are. A lack of connections
is found only between participants that have been placed. A search for any resource that will do
tells resources that lack what is asked for from those that are in use.
-/

namespace Conference

variable {slot : Slot} {s : Session} {g : Registry}

namespace Specification

/-- The request is malformed by itself: a recording outside the meeting that is to be recorded, or a
compartment of less than two endpoints. -/
def IsMalformed : Specification → Slot → Prop
  | recording spec, slot => ¬ spec.executable.slot.contains slot
  | compartment participants, _ => Compartment.endpointCount participants < 2
  | resource _, _ | room _, _ | dialAlias _, _ => False

/-- No resource has what is asked for, or each that does refuses the number that is asked for. -/
def LacksSupply (spec : Specification) (g : Registry) : Prop :=
  (∀ r ∈ g.resources, ¬ spec.isEligible r)
    ∨ ∃ asked value, spec = .dialAlias asked ∧ asked.value = some value
      ∧ ∀ r ∈ g.resources, spec.isEligible r →
        ∀ provider, r.aliasProvider? = some provider → ¬ provider.pool.accepts value

/-- The kind tells whether the search lacked supply. -/
def Sorts (spec : Specification) (g : Registry) (kind : FailureKind) : Prop :=
  (kind = .capabilityMismatch ↔ spec.LacksSupply g)
    ∧ (kind = .capacityExhausted ↔ ¬ spec.LacksSupply g)

theorem sorts_of_lacks {spec : Specification} (lacks : spec.LacksSupply g) :
    spec.Sorts g .capabilityMismatch :=
  ⟨iff_of_true rfl lacks, iff_of_false nofun fun never => never lacks⟩

theorem sorts_of_supplied {spec : Specification} (supplied : ¬ spec.LacksSupply g) :
    spec.Sorts g .capacityExhausted :=
  ⟨iff_of_false nofun supplied, iff_of_true rfl supplied⟩

end Specification

/-! ## Malformed requests -/

/-- A malformed request is refused as such at once. -/
theorem Specification.exists_refuse_of_malformed {spec : Specification}
    (malformed : spec.IsMalformed slot) :
    ∃ report : Report, report.failureKind? = some .invalidRequest
      ∧ spec.work slot = Attempt.refuse report := by
  cases spec with
  | recording spec => exact ⟨_, rfl, if_neg malformed⟩
  | compartment participants => exact ⟨_, rfl, if_pos malformed⟩
  | resource id => exact malformed.elim
  | room spec => exact malformed.elim
  | dialAlias spec => exact malformed.elim

/-- The kind does not blame the request, and blames connections only between participants that have
been placed. -/
def Specification.Spares (spec : Specification) (slot : Slot) (s : Session)
    (kind : FailureKind) : Prop :=
  kind ≠ .invalidRequest ∧ (kind = .connectivityInfeasible → ∃ participants,
    spec = .compartment participants
    ∧ ∃ es t, Compartment.placeAll slot 0 participants s = .ok (.ok es, t))

theorem Specification.spares_of_supply {spec : Specification} {kind : FailureKind}
    (supply : kind.OfSupply) :
    spec.Spares slot s kind :=
  ⟨supply.ne_invalidRequest, fun never => absurd never supply.ne_connectivityInfeasible⟩

/-- The work on a request that is not malformed never fails as if it were. -/
theorem Specification.work_spares {spec : Specification}
    (within : s.ledger.workingInterval.contains slot) (well : ¬ spec.IsMalformed slot) :
    (spec.work slot).FailsBy s (spec.Spares slot s) := by
  have supply {a : Attempt Nat} (explains : a.Explains Report.OfSupply) :
      a.FailsBy s (spec.Spares slot s) :=
    (Attempt.FailsBy.of_supply explains).mono fun _ => spares_of_supply
  cases spec with
  | resource id => exact supply (Exclusive.allocate_explains id none slot)
  | room spec => exact supply (spec.allocate_explains slot)
  | dialAlias spec => exact supply (spec.allocate_explains none slot)
  | recording spec =>
    -- an executable that does not last is a malformed request, which this is not
    refine supply ((spec.allocate_explains slot).mono fun report cited => ?_)
    rwa [if_pos (not_not.1 well)] at cited
  | compartment participants =>
    refine (Compartment.allocate_failsBy within (Nat.not_lt.1 well)).mono fun kind classified => ?_
    exact ⟨classified.1, fun unconnected => ⟨participants, rfl, classified.2 unconnected⟩⟩

/-! ## Searches -/

/-- A search among all usable resources finds none of them usable, or starts with those that are. -/
theorem Survey.eligible_bind_failsBy {usable : Resource → Bool} {capability : String}
    {search : List ResourceId → Attempt Nat} {p : FailureKind → Prop}
    (none_usable : s.registry.select usable = [] → p .capabilityMismatch)
    (searched : s.registry.select usable ≠ [] → (search (s.registry.select usable)).FailsBy s p) :
    (Survey.eligible none slot usable capability >>= search).FailsBy s p := by
  -- without a resource given the session is not touched
  have started : (Survey.eligible none slot usable capability).Ensures s
      (fun ids t => ids = s.registry.select usable ∧ ids ≠ [] ∧ t = s) fun e _ => p e.kind := by
    unfold Survey.eligible
    apply Attempt.Ensures.get_bind
    split
    · rename_i nothing
      exact Attempt.Ensures.refuse (none_usable nothing)
    · rename_i some_usable
      exact Attempt.Ensures.pure ⟨rfl, some_usable, rfl⟩
  refine Attempt.Ensures.bind started ?_
  rintro ids s ⟨rfl, some_usable, rfl⟩
  exact searched some_usable

namespace Session

variable {usable : Resource → Bool}

theorem Under.select (under : s.Under g) (usable : Resource → Bool) :
    s.registry.select usable = g.select usable := by
  show (s.registry.resources.filter usable).map (·.id) = _
  rw [under.resources]
  rfl

theorem Under.select_eq_nil (under : s.Under g) :
    s.registry.select usable = [] ↔ ∀ r ∈ g.resources, ¬ usable r := by
  rw [under.select, show g.select usable = (g.resources.filter usable).map (·.id) from rfl,
    List.map_eq_nil_iff, List.filter_eq_nil_iff]

/-- All usable resources refuse a number just if each provider among them does. -/
theorem Under.all_refuses (under : s.Under g) {value : String} :
    (g.select usable).all (AliasSpec.refuses s.registry value) ↔ ∀ r ∈ g.resources, usable r →
      ∀ provider, r.aliasProvider? = some provider → ¬ provider.pool.accepts value := by
  have known {r : Resource} (mem : r ∈ g.resources) : s.registry.get? r.id = some r := by
    rw [Registry.get?_congr under.resources, Registry.get?_eq_find?]
    exact find?_key_of_mem under.distinct mem
  -- a resource without a provider refuses every value
  have refuses {r : Resource} (mem : r ∈ g.resources) : AliasSpec.refuses s.registry value r.id
      ↔ ∀ provider, r.aliasProvider? = some provider → ¬ provider.pool.accepts value := by
    unfold AliasSpec.refuses
    rw [known mem, Option.bind_some]
    cases r.aliasProvider? with
    | none => exact iff_of_true rfl nofun
    | some provider => simp
  rw [show g.select usable = (g.resources.filter usable).map (·.id) from rfl,
    List.all_map, List.all_eq_true]
  constructor
  · exact fun all r mem fits => (refuses mem).1 (all r (List.mem_filter.2 ⟨mem, fits⟩))
  · intro all r chosen
    obtain ⟨mem, fits⟩ := List.mem_filter.1 chosen
    exact (refuses mem).2 (all r mem fits)

end Session

namespace Specification

/-- Where no resource is usable, supply is lacking. -/
theorem sorts_of_select_eq_nil (spec : Specification) (under : s.Under g)
    (nothing : s.registry.select spec.isEligible = []) : spec.Sorts g .capabilityMismatch :=
  sorts_of_lacks (Or.inl (under.select_eq_nil.1 nothing))

/-- Rooms and recordings lack supply only where no resource is usable. -/
theorem sorts_of_select_ne_nil {spec : Specification} (under : s.Under g)
    (other : ∀ asked, spec ≠ .dialAlias asked)
    (some_usable : s.registry.select spec.isEligible ≠ []) : spec.Sorts g .capacityExhausted := by
  refine sorts_of_supplied ?_
  rintro (nothing | ⟨asked, -, same, -⟩)
  · exact some_usable (under.select_eq_nil.2 nothing)
  · exact other asked same

/-- The reason that is given for an alias tells whether there is a provider that hands out the
number. -/
theorem sorts_reason (asked : AliasSpec) (under : s.Under g) {t : Session} (later : t.Under g)
    (some_usable : s.registry.select (asked.isUsable none) ≠ []) {kind : FailureKind}
    (own : (asked.reason t.registry (s.registry.select (asked.isUsable none))).failureKind?
      = some kind) :
    (Specification.dialAlias asked).Sorts g kind := by
  -- as some provider is usable, supply lacks just if a value is asked for that all of them refuse
  have lacks_iff : (Specification.dialAlias asked).LacksSupply g ↔ ∃ value, asked.value = some value
      ∧ (g.select (asked.isUsable none)).all (AliasSpec.refuses t.registry value) := by
    constructor
    · rintro (nothing | ⟨_, value, ⟨⟩, given, refused⟩)
      · exact absurd (under.select_eq_nil.2 nothing) some_usable
      · exact ⟨value, given, later.all_refuses.2 refused⟩
    · rintro ⟨value, given, refused⟩
      exact Or.inr ⟨asked, value, rfl, given, later.all_refuses.1 refused⟩
  rw [under.select] at own some_usable
  obtain ⟨first, head⟩ : ∃ first, (g.select (asked.isUsable none)).head? = some first :=
    Option.ne_none_iff_exists'.1 fun never => some_usable (List.head?_eq_none_iff.1 never)
  unfold AliasSpec.reason at own
  rw [head] at own
  cases given : asked.value with
  | none =>
    rw [given] at own
    cases own
    refine sorts_of_supplied fun lacks => ?_
    obtain ⟨value, never, -⟩ := lacks_iff.1 lacks
    cases given.symm.trans never
  | some value =>
    rw [given] at own
    simp only at own
    split at own
    · rename_i refused
      cases own
      exact sorts_of_lacks (lacks_iff.2 ⟨value, given, refused⟩)
    · rename_i handed_out
      cases own
      refine sorts_of_supplied fun lacks => ?_
      obtain ⟨value', given', refused⟩ := lacks_iff.1 lacks
      cases given.symm.trans given'
      exact handed_out refused

/-- A search for any resource that will do fails by the kind that sorts it. -/
theorem work_sorts {spec : Specification} (free : spec.IsFree) (well : ¬ spec.IsMalformed slot)
    (under : s.Under g) :
    (spec.work slot).FailsBy s (spec.Sorts g) := by
  cases spec with
  | resource id => exact free.elim
  | compartment participants => exact free.elim
  | room spec =>
    obtain ⟨participants, technologies, given, aliases⟩ := spec
    cases free
    have none_usable :=
      sorts_of_select_eq_nil (.room ⟨participants, technologies, none, aliases⟩) under
    refine Survey.eligible_bind_failsBy none_usable fun some_usable => ?_
    refine Attempt.Ensures.bind Attempt.FailsBy.lift fun cs t _ => ?_
    refine Attempt.Ensures.bind Attempt.FailsBy.lift fun found u _ => ?_
    cases found with
    | some key => exact Attempt.Ensures.pure trivial
    | none => exact Attempt.FailsBy.refuse rfl (sorts_of_select_ne_nil under nofun some_usable)
  | recording spec =>
    obtain ⟨executable, enabled, licenses, given⟩ := spec
    cases free
    have inside : executable.slot.contains slot := not_not.1 well
    show (RecordingSpec.allocate _ slot).FailsBy s _
    unfold RecordingSpec.allocate
    rw [if_pos inside]
    have none_usable :=
      sorts_of_select_eq_nil (.recording ⟨executable, enabled, licenses, none⟩) under
    refine Survey.eligible_bind_failsBy none_usable fun some_usable => ?_
    refine Attempt.Ensures.bind Attempt.FailsBy.lift fun found u _ => ?_
    cases found with
    | some key => exact Attempt.Ensures.pure trivial
    | none => exact Attempt.FailsBy.refuse rfl (sorts_of_select_ne_nil under nofun some_usable)
  | dialAlias asked =>
    obtain ⟨types, technologies, value, given⟩ := asked
    cases free
    have none_usable := sorts_of_select_eq_nil (.dialAlias ⟨types, technologies, value, none⟩) under
    refine Survey.eligible_bind_failsBy none_usable fun some_usable => ?_
    refine Attempt.Ensures.bind
      (Attempt.Ensures.lift (Survey.candidates_ensures none slot .values _ s)) ?_
    rintro cs t ⟨surveyed, accurate⟩
    refine Attempt.Ensures.bind
      (Attempt.Ensures.lift (AliasSpec.tryAll_places cs t surveyed accurate)) ?_
    intro found u placed
    cases found with
    | some key => exact Attempt.Ensures.pure trivial
    | none =>
      -- the reason is found in what is registered at the end, which is what was registered at the
      -- start
      apply Attempt.Ensures.get_bind
      have later : u.Under g := under.builds placed
      obtain ⟨kind, own⟩ := Option.isSome_iff_exists.1
        (AliasSpec.ofSupply_reason ⟨types, technologies, value, none⟩ u.registry _).classified
      exact Attempt.FailsBy.refuse own (sorts_reason _ under later some_usable own)

end Specification

/-! ## Refusals -/

namespace Scheduler

/-- The allocation is refused, and the failure is of this kind. -/
def RefusesAs (s : Scheduler) (spec : Specification) (slot : Slot) (ledger : Ledger)
    (kind : FailureKind) : Prop :=
  ∃ done refusal, s.allocate spec slot ledger = .ok done
    ∧ done.result = .error refusal ∧ refusal.kind = kind

theorem refusesAs_iff {s : Scheduler} {spec : Specification} {slot : Slot} {ledger : Ledger}
    {kind : FailureKind} :
    s.RefusesAs spec slot ledger kind ↔ (s.allocate spec slot ledger).toOption.any (fun done =>
      match done.result with
      | .error refusal => refusal.kind = kind
      | .ok _ => false) = true := by
  unfold RefusesAs
  cases s.allocate spec slot ledger with
  | error fault => simp [Except.toOption]
  | ok done => cases result : done.result <;> simp [Except.toOption, result]

instance (s : Scheduler) (spec : Specification) (slot : Slot) (ledger : Ledger)
    (kind : FailureKind) :
    Decidable (s.RefusesAs spec slot ledger kind) :=
  decidable_of_iff _ refusesAs_iff.symm

variable {scheduler : Scheduler} {spec : Specification} {ledger : Ledger} {kind : FailureKind}

/-- A refusal is of one kind only. -/
theorem RefusesAs.kind_eq {kind' : FailureKind}
    (refused : scheduler.RefusesAs spec slot ledger kind)
    (refused' : scheduler.RefusesAs spec slot ledger kind') : kind = kind' := by
  obtain ⟨done, refusal, run, result, rfl⟩ := refused
  obtain ⟨done', refusal', run', result', rfl⟩ := refused'
  cases run.symm.trans run'
  cases result.symm.trans result'
  rfl

/-- Inside the working interval the failures of the work are those of the allocation. -/
theorem RefusesAs.of_failsBy (refused : scheduler.RefusesAs spec slot ledger kind)
    (within : ledger.workingInterval.contains slot) {p : FailureKind → Prop}
    (work : (spec.work slot).FailsBy (scheduler.entered ledger spec slot) p) : p kind := by
  obtain ⟨done, refusal, run, result, rfl⟩ := refused
  have performed : ((Work.ofSpecification spec).job slot).perform.Ensures
      (scheduler.session ledger) fun r t =>
      Attempt.Ends (fun _ _ => True) (fun e _ => p e.kind) r.1 t := by
    apply Job.perform_failsBy
    · rw [Work.slot_job]
      exact within
    · rw [Work.slot_job]
      exact work
  obtain ⟨e, t, fails, rfl⟩ := exists_failure run result performed
  exact fails

/-- A job that is refused by its first report refuses the allocation. -/
theorem refusesAs_of_refuse (report : Report) (own : report.failureKind? = some kind)
    (attempted : ((Work.ofSpecification spec).job slot).attempt (scheduler.entered ledger spec slot)
      = (Attempt.refuse report : Attempt Nat) (scheduler.entered ledger spec slot)) :
    scheduler.RefusesAs spec slot ledger kind := by
  have performed := Job.perform_of_error (Work.state_job (Work.ofSpecification spec) slot) attempted
  unfold RefusesAs allocate
  rw [performed]
  refine ⟨_, _, rfl, rfl, ?_⟩
  show report.failureKind?.getD .capacityExhausted = kind
  rw [own]
  rfl

theorem refuses_as_invalid_iff : scheduler.RefusesAs spec slot ledger .invalidRequest
    ↔ ¬ ledger.workingInterval.contains slot ∨ spec.IsMalformed slot := by
  have attempt_eq :=
    ((Work.ofSpecification spec).job slot).attempt_eq (scheduler.entered ledger spec slot)
  rw [Work.slot_job] at attempt_eq
  constructor
  · intro refused
    by_contra both
    obtain ⟨within, well⟩ := not_or.1 both
    exact (refused.of_failsBy (not_not.1 within)
      (Specification.work_spares (not_not.1 within) well)).1 rfl
  · -- the slot is tested before the work, which then refuses what is malformed
    intro invalid
    by_cases within : ledger.workingInterval.contains slot
    · obtain ⟨report, own, work⟩ :=
        Specification.exists_refuse_of_malformed (invalid.resolve_left (not_not.2 within))
      refine refusesAs_of_refuse report own ?_
      rw [attempt_eq, ← work]
      exact congrFun (if_pos within) _
    · refine refusesAs_of_refuse (.slotOutsideWorkingInterval slot ledger.workingInterval) rfl ?_
      rw [attempt_eq]
      exact congrFun (if_neg within) _

/-- A refusal says that the request is invalid just if it lies outside the working interval or is
malformed by itself. That participants cannot be connected is said only of a compartment all the
participants of which have been placed. A search for any resource that will do tells a lack of
supply from supply that is in use. -/
theorem failures_are_classified (scheduler : Scheduler) (spec : Specification) (slot : Slot)
    (ledger : Ledger) :
    (scheduler.RefusesAs spec slot ledger .invalidRequest
      ↔ ¬ ledger.workingInterval.contains slot ∨ spec.IsMalformed slot)
    ∧ (scheduler.RefusesAs spec slot ledger .connectivityInfeasible →
      ∃ participants, spec = .compartment participants ∧ ledger.workingInterval.contains slot
        ∧ ¬ spec.IsMalformed slot
        ∧ ∃ es t, Compartment.placeAll slot 0 participants (scheduler.entered ledger spec slot)
          = .ok (.ok es, t))
    ∧ (scheduler.Arises → spec.IsFree → ledger.workingInterval.contains slot →
      ¬ spec.IsMalformed slot →
      ∀ kind, scheduler.RefusesAs spec slot ledger kind →
        (kind = .capabilityMismatch ↔ spec.LacksSupply scheduler.registry)
        ∧ (kind = .capacityExhausted ↔ ¬ spec.LacksSupply scheduler.registry)) := by
  refine ⟨refuses_as_invalid_iff, ?_, ?_⟩
  · -- a compartment that cannot be connected was within the interval and well formed
    intro refused
    have valid : ¬ scheduler.RefusesAs spec slot ledger .invalidRequest :=
      fun never => nomatch never.kind_eq refused
    obtain ⟨within, well⟩ := not_or.1 (mt refuses_as_invalid_iff.2 valid)
    have within := not_not.1 within
    obtain ⟨-, unconnected⟩ := refused.of_failsBy within (Specification.work_spares within well)
    obtain ⟨participants, rfl, placed⟩ := unconnected rfl
    exact ⟨participants, rfl, within, well, placed⟩
  · intro arises free within well kind refused
    have under : (scheduler.entered ledger spec slot).Under scheduler.registry :=
      (arises.under_session ledger).of_quiet (Session.quiet_enter _ _)
    exact refused.of_failsBy within (Specification.work_sorts free well under)

/-- No device hands out the number 999, and one hands out 70, which is in use. The gateway does not
speak RTMP, and so connects nobody who speaks nothing else. -/
theorem sample_failures_classified :
    let campus := ofInventory Sample.inventory
    let exchange := ofInventory Sample.exchange
    let ledger := Ledger.empty "pass" ⟨0, 100, by decide⟩
    let slot : Slot := ⟨1, 5, by decide⟩
    let number (value : String) : Specification := .dialAlias ⟨.empty, .empty, some value, none⟩
    let viewer : List Participant := [.existing Sample.studio.id, .external (.ofList [.rtmp]) 1]
    (campus.RefusesAs (number "999") slot ledger .capabilityMismatch
      ∧ (number "999").LacksSupply campus.registry)
    ∧ (campus.RefusesAs (number "70") slot ledger .capacityExhausted
      ∧ ¬ (number "70").LacksSupply campus.registry)
    ∧ (exchange.RefusesAs (.compartment viewer) slot ledger .connectivityInfeasible
      ∧ ∃ es t,
        Compartment.placeAll slot 0 viewer (exchange.entered ledger (.compartment viewer) slot)
          = .ok (.ok es, t))
    ∧ exchange.RefusesAs (.compartment viewer) ⟨5, 200, by decide⟩ ledger .invalidRequest := by
  intro campus exchange ledger slot number viewer
  -- the kinds are evaluated, what they say of the request follows
  have classified (value : String) :=
    (failures_are_classified campus (number value) slot ledger).2.2
      (.ofInventory Sample.inventory) rfl (by decide) id
  have unknown : campus.RefusesAs (number "999") slot ledger .capabilityMismatch := by
    decide +kernel
  have in_use : campus.RefusesAs (number "70") slot ledger .capacityExhausted := by decide +kernel
  have unconnected : exchange.RefusesAs
      (.compartment viewer) slot ledger .connectivityInfeasible := by decide +kernel
  refine ⟨⟨unknown, (classified "999" _ unknown).1.1 rfl⟩,
    ⟨in_use, (classified "70" _ in_use).2.1 rfl⟩, ?_, ?_⟩
  · obtain ⟨_, ⟨⟩, -, -, placed⟩ :=
      (failures_are_classified exchange (.compartment viewer) slot ledger).2.1 unconnected
    exact ⟨unconnected, placed⟩
  · exact (failures_are_classified exchange (.compartment viewer) ⟨5, 200, by decide⟩ ledger).1.2
      (Or.inl (by decide))

end Scheduler

end Conference
