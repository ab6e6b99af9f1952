import Conference.Proofs.Causes.Compartment
import Conference.Proofs.Connectivity
import Conference.Proofs.Granted.Labels
import Conference.Proofs.Scheduler.Compartment
import Conference.Proofs.Session.Attains

/-!
# What the check of connectivity lets pass

The plan for a compartment links all endpoints, but the check finds them by their labels. So it lets
the plan pass just if all endpoints are called differently, and a compartment is refused as
unconnected only where a terminal bears the name that a participant from outside gets by its place.
-/

namespace Conference

namespace Compartment

open Connectivity (indexOf? groups unreachable shadowed)

variable {g : Registry} {slot : Slot} {f : ReservationForest} {s t u : Session} {es : List Endpoint}
  {connections : List Connection} {room : Option Bridge} {participants : List Participant}

/-! ## Plans -/

/-- Where there is a room, all connections lead to it by its label. -/
theorem connect_targets (slot : Slot) (es : List Endpoint) (s : Session) :
    (connect slot es).Delivers s fun c _ => ∀ room, c.2 = some room →
      ∀ k ∈ c.1, k.target = room.label := by
  unfold connect
  have direct : (connectDirectly es).Ensures s fun _ _ => True := fun _ _ _ => trivial
  refine Attempt.Ensures.bind (Attempt.Ensures.lift direct) fun found t _ => ?_
  split
  · exact Attempt.Ensures.pure fun _ never => nomatch never
  · have bridged : (bridge slot es).Delivers t fun _ _ => True := by
      intro r u _
      cases r <;> trivial
    refine Attempt.Ensures.bind bridged fun b u _ => ?_
    apply Attempt.Ensures.get_bind
    apply Attempt.Ensures.pure
    rintro _ ⟨⟩ k mem
    obtain ⟨e, -, made⟩ := List.mem_filterMap.1 mem
    -- every spoke is made with the label of the room as its target
    obtain ⟨technology, -, rfl⟩ := Option.map_eq_some_iff.1 made
    rfl

theorem exists_spoke {technologies : TechnologySet} {r : Resource}
    (spokes : List.Forall₂ (Spoke technologies r) es connections) {e : Endpoint} (mem : e ∈ es) :
    ∃ c ∈ connections, Spoke technologies r e c := by
  induction spokes with
  | nil => cases mem
  | cons first rest ih =>
    rcases List.mem_cons.1 mem with rfl | later
    · exact ⟨_, List.mem_cons_self, first⟩
    · obtain ⟨c, there, spoke⟩ := ih later
      exact ⟨c, List.mem_cons_of_mem _ there, spoke⟩

/-- A plan that links all endpoints brings those together that are found by their labels. -/
theorem together_of_linked (linked : Linked g slot f es connections room)
    (targets : ∀ b, room = some b → ∀ k ∈ connections, k.target = b.label) (place : Nat)
    (label : String) (own : indexOf? (es.map (·.label)) label = some place) :
    (groups (es.map (·.label) ++ room.toList.map (·.label))
      (connections.map fun c => (c.origin, c.target)))[place]?
      = (groups (es.map (·.label) ++ room.toList.map (·.label))
        (connections.map fun c => (c.origin, c.target)))[0]? := by
  obtain ⟨there, -⟩ := Connectivity.indexOf?_eq_some.1 own
  cases room with
  | none =>
    obtain ⟨a, b, technology, rfl, -, -, rfl, -⟩ := linked
    match place with
    | 0 => rfl
    | 1 =>
      obtain rfl : b.label = label := Option.some.inj there
      have first : indexOf? ([a, b].map (·.label)) a.label = some 0 :=
        Connectivity.indexOf?_eq_some.2 ⟨rfl, fun _ never => nomatch never⟩
      simp only [Option.toList_none, List.map_nil, List.append_nil]
      exact (Connectivity.groups_joined (List.mem_singleton_self _) first own).symm
    | _ + 2 => cases there
  | some b =>
    obtain ⟨r, _, technologies, -, -, spokes⟩ := linked
    have last : b.label ∈ es.map (·.label) ++ [b.label] :=
      List.mem_append_right _ (List.mem_singleton_self _)
    obtain ⟨hub, found⟩ := Connectivity.exists_indexOf? last
    -- whoever is found by its label is linked with the room
    have joined {place : Nat} {label : String}
        (own : indexOf? (es.map (·.label)) label = some place) :
        (groups (es.map (·.label) ++ [b.label])
          (connections.map fun c => (c.origin, c.target)))[place]?
          = (groups (es.map (·.label) ++ [b.label])
            (connections.map fun c => (c.origin, c.target)))[hub]? := by
      have mem := List.mem_of_getElem? (Connectivity.indexOf?_eq_some.1 own).1
      obtain ⟨e, he, rfl⟩ := List.mem_map.1 mem
      obtain ⟨c, hc, spoke⟩ := exists_spoke spokes he
      have link : (e.label, b.label) ∈ connections.map fun c => (c.origin, c.target) :=
        List.mem_map.2 ⟨c, hc, by rw [spoke.origin, targets b rfl c hc]⟩
      refine Connectivity.groups_joined link ?_ found
      rw [Connectivity.indexOf?_append mem]
      exact own
    cases es with
    | nil => cases there
    | cons e es =>
      have first : indexOf? ((e :: es).map (·.label)) e.label = some 0 :=
        Connectivity.indexOf?_eq_some.2 ⟨rfl, fun _ never => nomatch never⟩
      exact (joined own).trans (joined first).symm

/-- The check lets a plan that links all endpoints pass just if they are called differently. -/
theorem verify_eq (linked : Linked g slot f es connections room)
    (targets : ∀ b, room = some b → ∀ k ∈ connections, k.target = b.label) (s : Session) :
    verify es room connections s = if (es.map (·.label)).Nodup then .ok (.ok (), s)
      else (Attempt.refuse (.participantsNotConnected (shadowed (es.map (·.label)))) :
        Attempt Unit) s := by
  -- all endpoints are together by the links, so only labels that are shadowed are not reached
  have found : unreachable (es.map (·.label) ++ room.toList.map (·.label))
      (connections.map fun c => (c.origin, c.target)) es.length = shadowed (es.map (·.label)) := by
    have alone : unreachable _ (connections.map fun c => (c.origin, c.target))
        (es.map (·.label)).length = _ :=
      Connectivity.unreachable_eq_shadowed fun place label _ own =>
        together_of_linked linked targets place label own
    rwa [List.length_map] at alone
  unfold verify
  rw [found]
  by_cases apart : (es.map (·.label)).Nodup
  · rw [if_pos apart, Connectivity.shadowed_eq_nil_iff.2 apart]
    rfl
  · rw [if_neg apart]
    cases hidden : shadowed (es.map (·.label)) with
    | nil => exact absurd (Connectivity.shadowed_eq_nil_iff.1 hidden) apart
    | cons label labels => rfl

/-! ## Refusals -/

/-- Of a plan it is only said that it is not connected if a name is borne twice. -/
def UnconnectedByName (g : Registry) (participants : List Participant) (report : Report) : Prop :=
  ∀ labels, report = .participantsNotConnected labels → NameClash g participants

theorem unconnectedByName_of_resources {report : Report} (of_resources : report.OfResources) :
    UnconnectedByName g participants report := by
  rintro labels rfl
  exact absurd rfl of_resources

/-- The endpoints that have been placed are called differently unless there is a clash of names. -/
theorem placeAll_delivers (h : s.Under g) (participants : List Participant) (slot : Slot) :
    (placeAll slot 0 participants).Delivers s fun es t =>
      t.Under g ∧ (¬ (es.map (·.label)).Nodup → NameClash g participants) := by
  refine (Attempt.Delivers.and (placeAll_ensures participants 0 s) (Attempt.Delivers.and
    (placeAll_standsFor participants 0 h) (placeAll_calledApart participants 0 h))).mono ?_
  rintro es t ⟨⟨_, builds, -⟩, stands, -, apart⟩
  exact ⟨h.builds builds, nameClash_of_not_nodup stands apart⟩

theorem connect_delivers (h : s.Under g) (slot : Slot) (es : List Endpoint) :
    (connect slot es).Delivers s fun c t => Linked g slot t.reservations es c.1 c.2
      ∧ ∀ room, c.2 = some room → ∀ k ∈ c.1, k.target = room.label :=
  Attempt.Delivers.and (connect_linked h slot es) (connect_targets slot es s)

/-- The check refuses a plan only if a name is borne twice, and nothing else says that a plan is not
connected. -/
theorem allocate_cites (h : s.Under g) (participants : List Participant) (slot : Slot) :
    (allocate participants slot).Ensures s (fun _ t => s.log <+: t.log) fun e t => s.log <+: t.log
      ∧ e.Cites t (UnconnectedByName g participants) := by
  unfold allocate
  simp only
  split
  · exact Attempt.Explains.refuse rfl nofun s
  · refine Attempt.Ensures.bind (((placeAll_explains participants 0 s).and
      (placeAll_delivers h participants slot)).mono (fun _ _ placed => placed) ?_) ?_
    · -- a participant cannot be placed
      rintro e t ⟨⟨grown, cites⟩, -⟩
      exact ⟨grown, cites.mono fun _ => unconnectedByName_of_resources⟩
    rintro es t ⟨grown, under, called⟩
    refine Attempt.Ensures.bind (((connect_explains es t).and (connect_delivers under slot es)).mono
      (fun _ _ connected => connected) ?_) ?_
    · -- no connection is found, which is said with another report
      rintro e u ⟨⟨grown', cites⟩, -⟩
      exact ⟨grown.trans grown', cites.mono fun _ other labels same => absurd same (other labels)⟩
    rintro ⟨connections, room⟩ u ⟨grown', linked, targets⟩
    have whole := grown.trans grown'
    -- the plan is refused only for a label that stands for two endpoints
    have checked : (verify es room connections).Ensures u (fun _ v => v = u) fun e v =>
        s.log <+: v.log
        ∧ e.Cites v (UnconnectedByName g participants) := by
      intro r v run
      change verify es room connections u = _ at run
      rw [verify_eq linked targets u] at run
      split at run
      · cases run
        rfl
      · rename_i repeated
        have refused : (Attempt.refuse (.participantsNotConnected (shadowed (es.map (·.label)))) :
            Attempt Unit).Explains (UnconnectedByName g participants) := .refuse rfl fun _ _ =>
              called repeated
        cases r with
        | ok _ => cases run
        | error e =>
          obtain ⟨grown'', cites⟩ := refused u _ v run
          exact ⟨whole.trans grown'', cites⟩
    refine Attempt.Ensures.bind checked ?_
    rintro _ u rfl
    apply Attempt.Ensures.modifyGet_bind
    refine Attempt.Ensures.bind (Attempt.Ensures.lift (attachAll_recalls _ _ _)) ?_
    intro _ v grown''
    exact Attempt.Ensures.pure (whole.trans grown'')

end Compartment

/-- The report that is the cause of a refusal. -/
def Refusal.reason? (r : Refusal) : Option Report := (r.reports.get? r.cause).map (·.report)

namespace Scheduler

/-- The allocation is refused, and the report is the cause of that. -/
def RefusesFor (s : Scheduler) (spec : Specification) (slot : Slot) (ledger : Ledger)
    (report : Report) : Prop :=
  ∃ done refusal, s.allocate spec slot ledger = .ok done ∧ done.result = .error refusal
    ∧ refusal.reason? = some report

theorem refusesFor_iff {s : Scheduler} {spec : Specification} {slot : Slot} {ledger : Ledger}
    {report : Report} :
    s.RefusesFor spec slot ledger report ↔ (s.allocate spec slot ledger).toOption.any (fun done =>
      match done.result with
      | .error refusal => refusal.reason? = some report
      | .ok _ => false) = true := by
  unfold RefusesFor
  cases s.allocate spec slot ledger with
  | error fault => simp [Except.toOption]
  | ok done => cases result : done.result <;> simp [Except.toOption, result]

instance (s : Scheduler) (spec : Specification) (slot : Slot) (ledger : Ledger) (report : Report) :
    Decidable (s.RefusesFor spec slot ledger report) :=
  decidable_of_iff _ refusesFor_iff.symm

/-- What the work of a specification cites when it fails, its refusal has as its cause. -/
theorem exists_reason {s : Scheduler} {spec : Specification} {slot : Slot} {ledger : Ledger}
    {done : Allocated} {refusal : Refusal} (run : s.allocate spec slot ledger = .ok done)
    (refused : done.result = .error refusal) {p : Report → Prop}
    (outside : ∀ slot interval, p (.slotOutsideWorkingInterval slot interval))
    (work : ∀ t : Session, (s.session ledger).Quiet t →
      (((Work.ofSpecification spec).job slot).work
        ((Work.ofSpecification spec).job slot).slot).Ensures t (fun _ u =>
          t.log <+: u.log) fun e u => t.log <+: u.log ∧ e.Cites u p) :
    ∃ report, refusal.reason? = some report
      ∧ report.failureKind? = some refusal.kind ∧ p report := by
  have cited := Job.perform_cites (outside _)
    (work _ (Session.quiet_enter (s.session ledger) ((Work.ofSpecification spec).job slot).title))
  obtain ⟨e, t, ⟨-, cites⟩, rfl⟩ := exists_failure run refused cited
  obtain ⟨d, found, rest⟩ := cites.exists_entry
  exact ⟨d.report, congrArg (Option.map ReportForest.Entry.report) found, rest⟩

/-- A plan for placed participants is refused as unconnected just if two endpoints are called the
same, which takes a terminal with the name that a participant from outside gets. Without one no
compartment is refused so. -/
theorem refused_as_unconnected {s : Scheduler} (arises : s.Arises) (participants : List Participant)
    (slot : Slot) :
    (∀ {t u v : Session} {es : List Compartment.Endpoint} {connections : List Connection}
        {room : Option Compartment.Bridge}, t.Under s.registry →
      Compartment.placeAll slot 0 participants t = .ok (.ok es, u) →
      Compartment.connect slot es u = .ok (.ok (connections, room), v) →
      (Compartment.verify es room connections v = if (es.map (·.label)).Nodup then .ok (.ok (), v)
          else (Attempt.refuse (.participantsNotConnected
            (Connectivity.shadowed (es.map (·.label)))) :
            Attempt Unit) v)
        ∧ (¬ Compartment.NameClash s.registry participants → (es.map (·.label)).Nodup))
    ∧ ∀ {ledger : Ledger} {labels : List String},
      s.RefusesFor (.compartment participants) slot ledger (.participantsNotConnected labels) →
      Compartment.NameClash s.registry participants := by
  constructor
  · intro t u v es connections room under placed connected
    obtain ⟨under', called⟩ := Compartment.placeAll_delivers under participants slot _ _ placed
    obtain ⟨linked, targets⟩ := Compartment.connect_delivers under' slot es _ _ connected
    exact ⟨Compartment.verify_eq linked targets v, not_imp_comm.1 called⟩
  · -- the report of the refusal is the cause of the failure, and only a repeated label has that
    -- cause
    rintro ledger labels ⟨done, refusal, run, refused, reason⟩
    obtain ⟨report, there, -, by_name⟩ :=
      exists_reason run refused (fun _ _ => nofun) fun t quiet =>
      Compartment.allocate_cites ((arises.under_session ledger).of_quiet quiet) participants slot
    rw [reason] at there
    cases there
    exact by_name labels rfl

/-- A reception, of which the terminal bears the name that the second participant gets if it is from
outside. -/
def reception : Inventory where
  domain := "reception"
  resources := [{ Sample.studio with id := ⟨"external endpoint 2"⟩ }]
  allocations := []
  committed := 0

def visitors : List Participant :=
  [.existing ⟨"external endpoint 2"⟩, .external (.ofList [.h323]) 1]

/-- The terminal and the visitor are connected directly, and yet refused as unconnected. -/
theorem visitor_unconnected :
    let s := ofInventory reception
    let ledger := Ledger.empty "pass" ⟨0, 100, by decide⟩
    let slot : Slot := ⟨1, 5, by decide⟩
    (∃ es t connections room u,
      Compartment.placeAll slot 0 visitors (s.session ledger) = .ok (.ok es, t)
        ∧ Compartment.connect slot es t = .ok (.ok (connections, room), u)
        ∧ ¬ ∃ v, Compartment.verify es room connections u = .ok (.ok (), v))
      ∧ s.RefusesFor (.compartment visitors) slot ledger
        (.participantsNotConnected ["external endpoint 2"]) := by
  intro s ledger slot
  -- a plan is found, and verifying it does not succeed
  have planned : (Compartment.placeAll slot 0 visitors).Attains (s.session ledger) (fun es t =>
      (Compartment.connect slot es).Attains t (fun plan u =>
        ¬ (Compartment.verify es plan.2 plan.1).Attains u (fun _ _ => True) fun _ _ => False)
        fun _ _ => False) fun _ _ => False := by decide +kernel
  refine ⟨?_, by decide +kernel⟩
  obtain ⟨es, t, placed, plan⟩ := planned.exists_ok
  obtain ⟨⟨connections, room⟩, u, connected, refused⟩ := plan.exists_ok
  refine ⟨es, t, connections, room, u, placed, connected, ?_⟩
  rintro ⟨v, verified⟩
  exact refused ⟨.ok (), v, verified, trivial⟩

/-- The visitor is connected with the terminal if it comes first and so gets another name. -/
theorem first_visitor_connected :
    let s := ofInventory reception
    let ledger := Ledger.empty "pass" ⟨0, 100, by decide⟩
    let slot : Slot := ⟨1, 5, by decide⟩
    (∃ es t connections room u,
      Compartment.placeAll slot 0 visitors.reverse (s.session ledger) = .ok (.ok es, t)
        ∧ Compartment.connect slot es t = .ok (.ok (connections, room), u)
        ∧ Compartment.verify es room connections u = .ok (.ok (), u))
      ∧ Compartment.NameClash s.registry visitors := by
  intro s ledger slot
  have arises : s.Arises := .ofInventory reception
  constructor
  · -- in the other order the first label met is that of the endpoint itself
    have planned : (Compartment.placeAll slot 0 visitors.reverse).Attains
        (s.session ledger) (fun es t =>
        (Compartment.connect slot es).Attains t (fun _ _ => (es.map (·.label)).Nodup) fun _ _ =>
          False) fun _ _ => False := by decide +kernel
    obtain ⟨es, t, placed, plan⟩ := planned.exists_ok
    obtain ⟨⟨connections, room⟩, u, connected, apart⟩ := plan.exists_ok
    have checked :=
      (refused_as_unconnected arises visitors.reverse slot).1
        (arises.under_session ledger) placed connected
    exact ⟨es, t, connections, room, u, placed, connected, checked.1.trans (if_pos apart)⟩
  · have refused : s.RefusesFor (.compartment visitors) slot ledger
        (.participantsNotConnected ["external endpoint 2"]) := by decide +kernel
    exact (refused_as_unconnected arises visitors slot).2 refused

end Scheduler

end Conference
