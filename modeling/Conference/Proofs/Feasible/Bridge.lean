import Conference.Proofs.Causes.Compartment
import Conference.Proofs.Feasible.Kinds
import Conference.Proofs.Sample
import Conference.Proofs.TechnologyPlan

/-!
# When participants can be bridged

A room provider that speaks a technology of every endpoint speaks all technologies of some set of
the plan for the endpoints. So if it has enough licenses left, one of the sets that are tried can be
had, and the sets that fail before it leave everything as they found it. Only if there is no such
provider at all, it is said that no room can bridge the participants.
-/

namespace Conference

variable {G : Ground} {base s : Session} {slot : Slot} {P : Prop}

/-- A job decides what its work decides. If it fails, it rolls back to where it was. -/
theorem Job.run_decides {job : Job} (fresh : job.state = .created)
    (within : base.ledger.workingInterval.contains job.slot)
    (work : (job.work job.slot).Decides base G P) :
    job.run.Decides base G P := by
  intro t h
  have inside : t.ledger.workingInterval.contains job.slot := by
    rw [h.quiet.ledger]
    exact within
  have savepoint : t.savepoint = base.savepoint := by
    unfold Session.savepoint
    rw [h.quiet.ledger, h.quiet.reservations]
  obtain ⟨r, u, worked, ends⟩ := work _ (h.report (Session.reporting_enter job.title))
  cases r with
  | ok key => exact ⟨.ok key, u.leave, Job.run_of_ok fresh inside worked, ends⟩
  | error e =>
    refine ⟨.error e, _, Job.run_of_error fresh inside worked, ends.1, ?_⟩
    -- going back to the savepoint undoes the reports as well as the rest
    rw [savepoint]
    exact (ends.2.report Session.reporting_leaveError).rollback

/-- A resource that comes into question for a room has enough licenses left. -/
def Ground.Hosts (G : Ground) (l : Ledger) (slot : Slot) (spec : RoomSpec) : Prop :=
  ∃ id ∈ G.eligible spec.resource slot spec.isUsable,
    ∃ c, G.candidate? l slot .roomLicenses id = some c ∧ spec.participants ≤ c.available

/-- The resource is registered and may host a room in a slot, and has enough licenses left for `n`
participants. -/
structure Session.HasRoom (s : Session) (r : Resource) (slot : Slot) (n : Nat) : Prop where
  registered : s.resource? r.id = some r
  allocatable : r.allocatable
  near : r.isWithinMaximumFuture slot s.ledger.workingInterval.start
  licenses : ∃ maximum used, r.roomProvider? = some maximum
    ∧ (s.ensure r.id).2.used r.id slot .roomLicenses = .ok used
    ∧ used < maximum ∧ n ≤ maximum - used

/-- A resource that has room, and speaks the technologies, hosts a room for them. -/
theorem Session.HasRoom.hosts {r : Resource} {n : Nat} (h : s.HasRoom r slot n)
    {technologies : TechnologySet} (speaks : r.supportsAll technologies) :
    s.ground.Hosts s.ledger slot ⟨n, technologies, none, []⟩ := by
  obtain ⟨maximum, used, provides, in_use, less, enough⟩ := h.licenses
  have stands := Session.stands_ground s
  have found : s.ground.resource? r.id = some r := (stands.resource? r.id).symm.trans h.registered
  have registered : s.registry.contains r.id := by
    rw [← Registry.isSome_find?, ← Option.isSome_map]
    exact Option.isSome_iff_exists.2 ⟨r, h.registered⟩
  have load : s.ground.load s.ledger r.id slot .roomLicenses = used := by
    rw [(stands.ensure_read registered).used List.mem_cons_self] at in_use
    exact Except.ok.inj in_use
  have allowed : s.ground.allowed? r.id slot = some r := by
    have near : r.isWithinMaximumFuture slot s.ground.interval.start := h.near
    rw [Ground.allowed?, found, Option.filter_some, h.allocatable, near]
    rfl
  -- the resource is eligible, and it is a candidate with what is left of its licenses
  refine ⟨r.id, ?_, ⟨r.id, s.ground.index r.id, maximum, maximum - used⟩, ?_, enough⟩
  · obtain ⟨p, there, rfl⟩ := Option.map_eq_some_iff.1 found
    refine List.mem_map_of_mem
      (List.mem_filter.2 ⟨List.mem_map_of_mem (List.mem_of_find?_eq_some there), ?_⟩)
    rw [RoomSpec.isUsable, provides, speaks]
    rfl
  · have capacity : r.capacity? .roomLicenses = some maximum := provides
    refine Ground.candidate?_eq_some.2 ⟨r, allowed, ?_, ?_⟩
    · rw [capacity, load]
      exact less
    · rw [capacity, load]
      rfl

namespace Compartment

open TechnologySet (Meets)

/-! ## What there is to try -/

theorem mem_bridgeable {g : Registry} {es : List Endpoint} {technologies : TechnologySet} :
    technologies ∈ bridgeable g es
      ↔ technologies ∈ TechnologySet.combinations (es.map (·.technologies))
      ∧ ∃ r ∈ g.resources, r.roomProvider?.isSome ∧ r.supportsAll technologies := by
  unfold bridgeable
  rw [List.mem_filter]
  refine and_congr_right fun _ => ?_
  have selected (p : Resource → Bool) : g.select p = (g.resources.filter p).map (·.id) := rfl
  rw [selected, Bool.not_eq_true', List.isEmpty_eq_false_iff, Ne, List.map_eq_nil_iff,
    List.filter_eq_nil_iff]
  simp

/-- A room provider speaks all of some set to try just if it speaks a technology of every
endpoint. -/
theorem bridgeable_eq_nil_iff {g : Registry} {es : List Endpoint} :
    bridgeable g es = [] ↔ ∀ r ∈ g.resources, r.roomProvider?.isSome →
      ¬ ∀ e ∈ es, Meets r.technologies e.technologies := by
  rw [List.eq_nil_iff_forall_not_mem]
  constructor
  · intro nothing r registered provides meets
    -- the technologies of the resource contain a set that would be tried
    have groups : ∀ group ∈ es.map (·.technologies), Meets r.technologies group := by
      intro group mem
      obtain ⟨e, he, rfl⟩ := List.mem_map.1 mem
      exact meets e he
    obtain ⟨technologies, planned, within⟩ := TechnologySet.exists_mem_combinations groups
    exact nothing technologies (mem_bridgeable.2 ⟨planned, r, registered, provides, within⟩)
  · intro apart technologies mem
    obtain ⟨planned, r, registered, provides, within⟩ := mem_bridgeable.1 mem
    refine apart r registered provides fun e he => ?_
    obtain ⟨technology, chosen, shared⟩ :=
      TechnologySet.meets_of_mem_combinations planned _ (List.mem_map_of_mem he)
    exact ⟨technology, Selection.isSubset_iff.1 within technology chosen, shared⟩

/-! ## Trying -/

/-- By induction on the sets that are left: those that fail leave the ground to the next one as it
was. -/
theorem tryBridges_attains (within : base.ledger.workingInterval.contains slot) (participants : Nat)
    (sets : List TechnologySet) :
    ∀ (last : Option Failure) {t : Session}, base.Stays G [] t →
      (tryBridges slot participants last sets).Attains t fun found _ =>
        (∃ technologies ∈ sets, G.Hosts base.ledger slot ⟨participants, technologies, none, []⟩) →
          ∃ b, found = .ok b := by
  induction sets with
  | nil => exact fun last t _ => Action.Attains.pure fun ⟨_, never, _⟩ => nomatch never
  | cons technologies sets ih =>
    intro last t h
    unfold tryBridges
    apply Action.Attains.modify_bind
    have opened := h.report (Session.reporting_openReport (.bridgingWithRoom technologies))
    let spec : RoomSpec := ⟨participants, technologies, none, []⟩
    have decides : (spec.job slot).run.Decides base G (G.Hosts base.ledger slot spec) :=
      Job.run_decides rfl within (spec.allocate_decides rfl)
    refine Action.Attains.bind (decides _ opened) fun r t' done => ?_
    cases r with
    | ok key =>
      apply Action.Attains.modify_bind
      apply Action.Attains.get_bind
      exact Action.Attains.pure fun _ => ⟨_, rfl⟩
    | error e =>
      apply Action.Attains.modify_bind
      -- the rollback of the failed room has left the ground to the sets behind
      refine (ih (some e) (done.2.report Session.reporting_closeError)).mono
        fun found u reached => ?_
      rintro ⟨technologies', mem, hosts⟩
      rcases List.mem_cons.1 mem with rfl | mem
      · exact absurd hosts done.1
      · exact reached ⟨technologies', mem, hosts⟩

theorem exists_bridge {es : List Endpoint} {n : Nat}
    (within : s.ledger.workingInterval.contains slot) (counted : participantCount es = .ok n)
    {technologies : TechnologySet} (planned : technologies ∈ bridgeable s.registry es)
    (hosts : s.ground.Hosts s.ledger slot ⟨n, technologies, none, []⟩) :
    ∃ b t, bridge slot es s = .ok (.ok b, t) := by
  have attained : (bridge slot es).Attains s (fun _ _ => True) fun _ _ => False := by
    unfold bridge
    simp only
    apply Attempt.Attains.get_bind
    split
    · rename_i nothing
      rw [nothing] at planned
      cases planned
    · apply Attempt.Attains.ask_bind counted
      refine Attempt.Attains.bind
        (Attempt.Attains.lift (tryBridges_attains within n _ none
          (.refl (Session.stands_ground s)))) fun found t reached => ?_
      -- one of the sets can be hosted, so the trial ends with a bridge
      obtain ⟨b, rfl⟩ := reached ⟨technologies, planned, hosts⟩
      exact Attempt.Attains.pure trivial
  obtain ⟨r, t, run, ends⟩ := attained
  cases r with
  | ok b => exact ⟨b, t, run⟩
  | error e => exact ends.elim

/-- The failure says that no room can bridge the participants. -/
def BlamesRooms (e : Failure) (t : Session) : Prop :=
  e.Cites t fun report => ∃ technologies, report = .noBridgingRoom technologies

/-- Endpoints are bridged whenever some room provider that speaks a technology of each of them may
be used and has enough licenses left. That there is no room to bridge them is said just if no
registered room provider speaks a technology of each of them. -/
theorem bridge_complete (s : Session) (slot : Slot) (es : List Endpoint) :
    (∀ n r, s.ledger.workingInterval.contains slot →
      participantCount es = .ok n → s.HasRoom r slot n →
        (∀ e ∈ es, Meets r.technologies e.technologies) → ∃ b t, bridge slot es s = .ok (.ok b, t))
      ∧ ((∃ e t, bridge slot es s = .ok (.error e, t) ∧ BlamesRooms e t)
        ↔ ∀ r ∈ s.registry.resources, r.roomProvider?.isSome →
          ¬ ∀ e ∈ es, Meets r.technologies e.technologies) := by
  refine ⟨fun n r within counted room meets => ?_, ?_⟩
  · have groups : ∀ group ∈ es.map (·.technologies), Meets r.technologies group := by
      intro group mem
      obtain ⟨e, he, rfl⟩ := List.mem_map.1 mem
      exact meets e he
    obtain ⟨technologies, planned, speaks⟩ := TechnologySet.exists_mem_combinations groups
    obtain ⟨maximum, _, provides, -⟩ := room.licenses
    have listed : r ∈ s.registry.resources := by
      have found : s.registry.resources.find? (·.id == r.id) = some r :=
        (s.registry.get?_eq_find? r.id).symm.trans room.registered
      exact List.mem_of_find?_eq_some found
    refine exists_bridge within counted (mem_bridgeable.2 ⟨planned, r, listed, ?_, speaks⟩)
      (room.hosts speaks)
    rw [provides]
    rfl
  · rw [← bridgeable_eq_nil_iff]
    constructor
    · rintro ⟨e, t, run, report, there, -, technologies, rfl⟩
      by_contra sets
      -- the cause is the same report, and a failed room would have said something about its
      -- resources
      obtain ⟨-, -, blames⟩ := bridge_cites slot es s (.error e) t run
      obtain ⟨report, there', -, of_resources⟩ := blames sets
      rw [there] at there'
      cases there'
      exact of_resources rfl
    · intro nothing
      have refused : (bridge slot es).Attains s (fun _ _ => False) fun _ _ => True := by
        unfold bridge
        simp only
        apply Attempt.Attains.get_bind
        rw [nothing]
        exact Attempt.Attains.refuse trivial
      obtain ⟨e | _, t, run, ends⟩ := refused
      · obtain ⟨-, cites, -⟩ := bridge_cites slot es s (.error e) t run
        exact ⟨e, t, run, (cites nothing).mono fun _ same => ⟨_, same⟩⟩
      · exact ends.elim

/-- The gateway bridges the studio and the phone, but nobody who speaks neither H.323 nor SIP. -/
theorem gateway_bridges :
    let s :=
      Session.start (.empty "pass" ⟨0, 100, by decide⟩)
        (Registry.empty.load Sample.exchange) Sample.exchange
    let studio : Endpoint := ⟨"studio", .ofList [.h323], 1, 0⟩
    let phone : Endpoint := ⟨"phone", .ofList [.sip, .rtmp], 1, 1⟩
    let guest : Endpoint := ⟨"guest", .ofList [.skypeForBusiness], 1, 2⟩
    s.HasRoom Sample.gateway ⟨1, 5, by decide⟩ 2
      ∧ (∃ b t, bridge ⟨1, 5, by decide⟩ [studio, phone] s = .ok (.ok b, t))
      ∧ ∃ e t, bridge ⟨1, 5, by decide⟩ [studio, guest] s = .ok (.error e, t)
      ∧ BlamesRooms e t := by
  intro s studio phone guest
  have room : s.HasRoom Sample.gateway ⟨1, 5, by decide⟩ 2 :=
    ⟨rfl, rfl, rfl, 10, 0, rfl, rfl, by decide, by decide⟩
  refine ⟨room, ?_, ?_⟩
  · -- the gateway speaks with both
    refine (bridge_complete s ⟨1, 5, by decide⟩ [studio, phone]).1 2 Sample.gateway rfl rfl room ?_
    intro e he
    rcases List.mem_pair.1 he with rfl | rfl
    · exact ⟨.h323, by decide, by decide⟩
    · exact ⟨.sip, by decide, by decide⟩
  · -- nothing registered speaks with the guest
    refine (bridge_complete s ⟨1, 5, by decide⟩ [studio, guest]).2.2 ?_
    rintro r registered provides meets
    obtain ⟨technology, spoken, shared⟩ := meets guest (by simp)
    have none_speaks : ∀ r ∈ s.registry.resources, Technology.skypeForBusiness
        ∉ r.technologies := by decide
    obtain rfl : technology = .skypeForBusiness := by
      revert shared
      cases technology <;> decide
    exact none_speaks r registered spoken

end Compartment

end Conference
