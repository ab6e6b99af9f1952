import Conference.Allocation.Exclusive
import Conference.Proofs.Feasible.Survey
import Conference.Proofs.Search.Kinds

/-!
# When rooms, recordings, aliases and whole resources can be had

A room without aliases, a recording or an alias can be had if a resource that comes into question
has enough capacity left, and of an alias provider a value; a whole resource, if it may be used and
nothing of it is in use.
-/

namespace Conference

variable {G : Ground} {base : Session} {slot : Slot} {read : List ResourceId} {c : Candidate}
  {id : ResourceId}

theorem Attempt.refuse_attains {report : Report} {t : Session} (h : base.Stays G [] t) :
    (Attempt.refuse report : Attempt Nat).Attains t (fun _ _ => False) fun _ t' =>
      base.Stays G [] t' :=
  Attempt.Attains.refuse (h.fail report)

/-! ## Rooms -/

namespace RoomSpec

variable {spec : RoomSpec}

/-- A candidate takes a room if enough licenses of it are left. -/
theorem tryAll_decides (bare : spec.aliases = [])
    (made : G.candidate? base.ledger slot .roomLicenses id = some c) (among : c.resource ∈ read) :
    (spec.tryAll slot [c]).Decides base G read (spec.participants ≤ c.available) := by
  intro t h
  have left : c.available = c.maximum - G.load base.ledger c.resource slot .roomLicenses := by
    rw [Ground.resource_of_candidate? made]
    exact Ground.available_of_candidate? made
  -- without aliases nothing can fail behind the comparison of the licenses
  have placed : (spec.place slot c).Attains t fun found t' =>
      (found.isSome ↔ spec.participants ≤ c.available) ∧ (found = none → base.Stays G read t') := by
    unfold place
    rw [bare, left]
    apply Action.Attains.modify_bind
    have opened := h.report (Session.reporting_openReport (.allocatingResource c.resource))
    apply Action.Attains.ask_bind (opened.used among slot .roomLicenses)
    simp only
    split
    · rename_i short
      apply Action.Attains.modify_bind
      apply Action.Attains.modify_bind
      apply Action.Attains.pure
      refine ⟨by simpa using short, fun _ => Session.Stays.report Session.reporting_closeError ?_⟩
      exact opened.report (Session.reporting_addError _)
    · rename_i enough
      exact ⟨_, _, rfl, by simpa using enough, fun never => absurd never (Option.some_ne_none _)⟩
  unfold tryAll
  refine Action.Attains.bind placed ?_
  rintro found t' done
  cases found with
  | some key => exact Action.Attains.pure done
  | none => exact Action.Attains.pure done

/-- A room without aliases can be had just if enough licenses are left of a resource that comes into
question. -/
theorem allocate_decides (bare : spec.aliases = []) :
    (spec.allocate slot).Decides base G
      (∃ id ∈ G.eligible spec.resource slot spec.isUsable,
        ∃ c, G.candidate? base.ledger slot .roomLicenses id = some c
          ∧ spec.participants ≤ c.available) := by
  have work : spec.allocate slot = (spec.search slot).work slot spec.resource :=
    spec.allocate_eq_work _
  rw [work]
  refine (spec.search slot).work_decides (fun ids => ?_) fun _ t h => Attempt.refuse_attains h
  exact Survey.decides spec.tryAll_inTurn (tryAll_decides bare) spec.resource ids

end RoomSpec

/-! ## Recordings -/

namespace RecordingSpec

variable {spec : RecordingSpec}

theorem tryAll_decides :
    (spec.tryAll slot [c]).Decides base G read (spec.licenses ≤ c.available) := by
  intro t h
  unfold tryAll
  split
  · rename_i short
    apply Action.Attains.modify_bind
    apply Action.Attains.pure
    exact ⟨by simpa using short, fun _ => h.report (Session.reporting_addError _)⟩
  · rename_i enough
    exact ⟨_, _, rfl, by simpa using enough, fun never => absurd never (Option.some_ne_none _)⟩

theorem tryUnlicensed_decides (id : ResourceId) :
    (spec.tryUnlicensed slot [id]).Decides base G [] (G.allowed? id slot).isSome := by
  intro t h
  unfold tryUnlicensed
  apply Action.Attains.modifyGet_bind
  split
  · rename_i r passed
    rw [h.toStands.allowed_of_ok passed]
    exact ⟨_, _, rfl, by simp, fun never => absurd never (Option.some_ne_none _)⟩
  · rename_i reason refused
    apply Action.Attains.modify_bind
    apply Action.Attains.pure
    rw [h.toStands.allowed_of_error refused]
    exact ⟨by simp, fun _ => (h.check_error refused).report (Session.reporting_addError reason)⟩

/-- An enabled recording takes licenses; a disabled one can be had from any resource that may be
used. -/
theorem allocate_decides (spec : RecordingSpec) :
    (spec.allocate slot).Decides base G
      (spec.executable.slot.contains slot ∧ ∃ id ∈ G.eligible spec.resource slot spec.isUsable,
        if spec.enabled then ∃ c, G.candidate? base.ledger slot .recordingLicenses id = some c
          ∧ spec.licenses ≤ c.available
        else (G.allowed? id slot).isSome) := by
  by_cases within : spec.executable.slot.contains slot
  · -- with licenses the search is one among candidates, without any one among resources
    by_cases enabled : spec.enabled
    · have work : spec.allocate slot = (spec.search slot).work slot spec.resource :=
        allocate_eq_work within enabled _
      simp only [within, enabled, true_and, if_true]
      rw [work]
      refine (spec.search slot).work_decides (fun ids => ?_) fun _ t h => Attempt.refuse_attains h
      exact Survey.decides spec.tryAll_inTurn (fun _ _ => tryAll_decides) spec.resource ids
    · have work : spec.allocate slot = (spec.unlicensedSearch slot).work slot spec.resource :=
        allocate_eq_unlicensedWork within enabled _
      simp only [within, enabled, true_and]
      rw [work]
      refine (spec.unlicensedSearch slot).work_decides (fun ids => ?_) fun _ t h =>
        Attempt.refuse_attains h
      exact spec.tryUnlicensed_inTurn.decides ids fun id _ => tryUnlicensed_decides id
  · intro t h
    unfold allocate
    rw [if_neg within]
    exact Attempt.Attains.refuse ⟨fun fit => within fit.1, h.fail _⟩

end RecordingSpec

/-! ## Aliases -/

namespace AliasSpec

variable {spec : AliasSpec}

/-- The value that a provider hands out while others are in use. -/
def choice? (spec : AliasSpec) (provider : AliasProvider) (used : List String) : Option String :=
  match spec.value with
  | some value => if provider.pool.accepts value && !used.contains value then some value else none
  | none => provider.pool.firstFree? used

theorem pickValue_attains {t : Session} (h : base.Stays G read t) (among : id ∈ read)
    (provider : AliasProvider) :
    (spec.pickValue slot id provider).Attains t fun found t' =>
      found = spec.choice? provider (G.values base.ledger id slot) ∧ base.Stays G read t' := by
  unfold pickValue choice?
  apply Action.Attains.ask_bind (h.allocatedValues among slot)
  cases spec.value with
  | some value =>
    simp only
    -- a value that is asked for may be unknown to the pool, or in use
    cases accepts : provider.pool.accepts value with
    | false =>
      apply Action.Attains.modify_bind
      exact Action.Attains.pure ⟨rfl, h.report (Session.reporting_addError _)⟩
    | true =>
      cases taken : (G.values base.ledger id slot).contains value with
      | true =>
        apply Action.Attains.modify_bind
        exact Action.Attains.pure ⟨rfl, h.report (Session.reporting_addError _)⟩
      | false => exact Action.Attains.pure ⟨rfl, h⟩
  | none =>
    simp only
    cases free : provider.pool.firstFree? (G.values base.ledger id slot) with
    | some value => exact Action.Attains.pure ⟨rfl, h⟩
    | none =>
      apply Action.Attains.modify_bind
      exact Action.Attains.pure ⟨rfl, h.report (Session.reporting_addError _)⟩

/-- The provider has a value to hand out. -/
def Serves (spec : AliasSpec) (G : Ground) (l : Ledger) (slot : Slot) (id : ResourceId) : Prop :=
  ∃ provider, (G.resource? id).bind (·.aliasProvider?) = some provider
    ∧ (spec.choice? provider (G.values l id slot)).isSome

/-- A candidate gives an alias if it has a value to hand out. Where there are no reservations yet,
the nodes for the alias and its value can be linked. -/
theorem tryAll_decides (fresh : base.reservations = .empty) (among : c.resource ∈ read) :
    (spec.tryAll slot [c]).Decides base G read (spec.Serves G base.ledger slot c.resource) := by
  intro t h
  -- a session is alike to itself. That pairs the run with itself, and so shows that it ends without
  -- a fault
  have itself : t.Alike G (.claims slot 0 True) read t := by
    have empty : t.reservations = .empty := h.quiet.reservations.trans fresh
    refine ⟨h.toStands, h.toStands, rfl,
      (ReservationForest.shift_zero _).symm, fun _ => rfl, ?_, ?_⟩
    · rw [empty]
      exact ReservationForest.inProgress_empty
    · rw [empty]
      exact fun _ mem => nomatch mem
  have paired : (spec.tryAll slot [c]).Pairs (fun _ => False) t (spec.tryAll slot [c]) t
      (Session.FoundAlike G (.claims slot 0 True) read) := by
    refine tryAll_pairs spec [c] (fun d mem => ?_) itself
    rw [List.mem_singleton.1 mem]
    exact among
  obtain ⟨found, t', -, -, run, -⟩ | ⟨fault, never, -⟩ := paired
  · refine ⟨found, t', run, ?_⟩
    -- what the run leads to is then read off the steps
    have ensured : (spec.tryAll slot [c]).Ensures t fun found t' =>
        (found.isSome ↔ spec.Serves G base.ledger slot c.resource)
          ∧ (found = none → base.Stays G read t') := by
      unfold tryAll Serves
      apply Action.Ensures.get_bind
      simp only [h.toStands.resource?]
      cases provides : (G.resource? c.resource).bind (·.aliasProvider?) with
      | none => exact Action.Ensures.pure ⟨by simp, fun _ => h⟩
      | some provider =>
        apply Action.Ensures.modify_bind
        have opened := h.report (Session.reporting_openReport (.allocatingValue c.resource))
        refine Action.Ensures.bind (pickValue_attains opened among provider).ensures ?_
        rintro picked t' ⟨rfl, stays⟩
        cases chosen : spec.choice? provider (G.values base.ledger c.resource slot) with
        | none =>
          apply Action.Ensures.modify_bind
          exact Action.Ensures.pure
            ⟨by simp [chosen], fun _ => stays.report Session.reporting_closeError⟩
        | some value =>
          apply Action.Ensures.modify_bind
          apply Action.Ensures.map
          intro key t' _
          exact ⟨by simp [chosen], fun never => absurd never (Option.some_ne_none _)⟩
    exact ensured found t' run
  · exact never.elim

/-- An alias can be had just if a provider that comes into question has capacity left and a value to
hand out. -/
theorem allocate_decides (fresh : base.reservations = .empty) (spec : AliasSpec)
    (target : Option ResourceId) :
    (spec.allocate target slot).Decides base G
      (∃ id ∈ G.eligible spec.resource slot (spec.isUsable target),
        (G.candidate? base.ledger slot .values id).isSome ∧ spec.Serves G base.ledger slot id) := by
  have work : spec.allocate target slot = (spec.search target slot).work slot spec.resource :=
    spec.allocate_eq_work target _
  rw [work]
  refine (spec.search target slot).work_decides (fun ids => ?_) fun ids t h => ?_
  · intro t h
    -- being a candidate is part of the survey, serving the alias is part of the trial
    have surveyed : (Survey.candidates spec.resource slot .values ids
        >>= spec.tryAll slot).Decides base G []
        (∃ id ∈ ids, ∃ c, G.candidate? base.ledger slot .values id = some c
          ∧ spec.Serves G base.ledger slot c.resource) :=
      Survey.decides spec.tryAll_inTurn
        (fun _ among => tryAll_decides fresh among) spec.resource ids
    refine (surveyed t h).mono fun found t' done => ⟨done.1.trans ?_, done.2⟩
    constructor
    · rintro ⟨id, listed, c, made, serves⟩
      rw [Ground.resource_of_candidate? made] at serves
      exact ⟨id, listed, Option.isSome_iff_exists.2 ⟨c, made⟩, serves⟩
    · rintro ⟨id, listed, made, serves⟩
      obtain ⟨c, made⟩ := Option.isSome_iff_exists.1 made
      rw [← Ground.resource_of_candidate? made] at serves
      exact ⟨id, listed, c, made, serves⟩
  · apply Attempt.Attains.get_bind
    exact Attempt.refuse_attains h

end AliasSpec

/-! ## Whole resources -/

namespace Exclusive

/-- A whole resource can be had just if it may be used and nothing of it is in use; an endpoint has
to be a terminal. -/
theorem allocate_decides (id : ResourceId) (label : Option String) :
    (allocate id label slot).Decides base G
      ((∃ r, G.allowed? id slot = some r ∧ (label.isSome → r.terminal?.isSome))
        ∧ G.load base.ledger id slot .exclusive = 0) := by
  intro t h
  unfold allocate
  apply Attempt.Attains.modifyGet_bind
  split
  · rename_i reason refused
    refine Attempt.Attains.refuse ⟨?_, (h.check_error refused).fail reason⟩
    rw [h.toStands.allowed_of_error refused]
    rintro ⟨⟨r, never, -⟩, -⟩
    cases never
  · rename_i r passed
    have checked := h.check_ok passed
    have stays : base.Stays G [] (t.checkResource id slot).2 :=
      checked.of_subset (List.nil_subset _)
    rw [h.toStands.allowed_of_ok passed]
    split
    · -- an endpoint has to be at a terminal
      rename_i unfit
      refine Attempt.Attains.refuse ⟨?_, stays.fail _⟩
      rintro ⟨⟨_, ⟨⟩, terminal⟩, -⟩
      rw [Bool.and_eq_true] at unfit
      have fits := terminal unfit.1
      rw [Option.isNone_iff_eq_none.1 unfit.2] at fits
      cases fits
    · rename_i fit
      have terminal (named : label.isSome) : r.terminal?.isSome := by
        cases found : r.terminal? with
        | some _ => rfl
        | none => exact absurd (by rw [named, found]; rfl) fit
      apply Attempt.Attains.ask_bind (checked.used List.mem_cons_self slot .exclusive)
      split
      · rename_i taken
        refine Attempt.Attains.refuse ⟨?_, stays.fail _⟩
        rintro ⟨-, free⟩
        omega
      · rename_i free
        exact ⟨_, _, rfl, ⟨r, rfl, terminal⟩, by omega⟩

end Exclusive

end Conference
