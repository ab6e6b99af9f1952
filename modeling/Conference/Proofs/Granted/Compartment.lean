import Conference.Proofs.Granted.Kinds
import Conference.Proofs.TechnologyPlan

/-!
# Compartments are connected

Each participant of a compartment gets a node of its own, and these nodes are linked by connections:
two of them directly, or each of them with a room. The room speaks a set of technologies from the
plan for the endpoints, which has something in common with every one of them, so that none is left
without its connection.
-/

namespace Conference.Compartment

/-! ## What a compartment should look like -/

/-- The endpoint is a registered terminal, and its node says so. -/
structure Endpoint.IsTerminal (e : Endpoint) (g : Registry) (slot : Slot) (f : ReservationForest)
    (id : ResourceId) : Prop where
  registered : ∃ r, g.get? id = some r ∧ r.terminal?.isSome ∧ e.technologies = r.technologies
  label : e.label = id.text
  count : e.count = 1
  node : f.get? e.key = some (.made slot (.endpoint e.label (some id) e.technologies e.count))

/-- The endpoint stands for a participant, which is at a place counted from zero. -/
def Endpoint.StandsFor (e : Endpoint) (g : Registry) (slot : Slot) (f : ReservationForest)
    (index : Nat) :
    Participant → Prop
  | .existing id => e.IsTerminal g slot f id
  | .lookup technologies =>
    ∃ id, e.IsTerminal g slot f id ∧ ∃ r, g.get? id = some r ∧ r.supportsAny technologies
  | .external technologies count =>
    e.label = s!"external endpoint {index + 1}" ∧ e.technologies = technologies ∧ e.count = count
      ∧ f.get? e.key = some (.made slot (.endpoint e.label none e.technologies e.count))

/-- The connection leads from an endpoint to a room that speaks some technologies, on a resource. -/
structure Spoke (technologies : TechnologySet) (r : Resource) (e : Endpoint)
    (c : Connection) : Prop where
  origin : c.origin = e.label
  target : c.target = s!"room {r.id.text}"
  endpoint : c.technology ∈ e.technologies
  room : c.technology ∈ technologies
  resource : c.technology ∈ r.technologies

/-- The connections link all endpoints: two single ones with each other, or each of them with the
room. -/
def Linked (g : Registry) (slot : Slot) (f : ReservationForest) (endpoints : List Endpoint)
    (connections : List Connection) : Option Bridge → Prop
  | none => ∃ a b technology, endpoints = [a, b] ∧ a.count ≤ 1 ∧ b.count ≤ 1
      ∧ connections = [⟨a.label, b.label, technology⟩] ∧ technology ∈ a.technologies
      ∧ technology ∈ b.technologies
  | some room => ∃ r licenses technologies, g.get? r.id = some r
      ∧ f.get? room.key = some (.made slot (.room r.id licenses technologies))
      ∧ List.Forall₂ (Spoke technologies r) endpoints connections

/-- The tree is that of a compartment, with an endpoint for each participant in their order, and the
room after them if there is one. -/
def Connected (g : Registry) (slot : Slot) (participants : List Participant)
    (tree : ReservationForest) : Prop :=
  ∃ root endpoints connections room,
    tree.root = some root
      ∧ tree.get? root = some (.made slot (.compartment connections))
      ∧ tree.children root = endpoints.map (·.key) ++ room.toList.map (·.key)
      ∧ List.Forall₂ (fun p e => Endpoint.StandsFor e g slot tree p.2 p.1)
        participants.zipIdx endpoints
      ∧ Linked g slot tree endpoints connections room

variable {g : Registry} {slot : Slot} {s : Session} {f f' : ReservationForest}

section Extends

variable (extend : f.Extends f')

include extend

/-- A terminal stays one as the forest grows. -/
theorem Endpoint.IsTerminal.extends {e : Endpoint} {id : ResourceId}
    (h : e.IsTerminal g slot f id) :
    e.IsTerminal g slot f' id :=
  { h with node := extend _ _ h.node }

/-- An endpoint goes on standing for its participant. -/
theorem Endpoint.StandsFor.extends {e : Endpoint} {index : Nat} {p : Participant}
    (h : e.StandsFor g slot f index p) : e.StandsFor g slot f' index p := by
  cases p with
  | existing id => exact Endpoint.IsTerminal.extends extend h
  | lookup technologies =>
    obtain ⟨id, terminal, speaks⟩ := h
    exact ⟨id, terminal.extends extend, speaks⟩
  | external technologies count =>
    obtain ⟨label, same, same', node⟩ := h
    exact ⟨label, same, same', extend _ _ node⟩

/-- Links stay as they are. -/
theorem Linked.extends {endpoints : List Endpoint} {connections : List Connection}
    {room : Option Bridge} (h : Linked g slot f endpoints connections room) :
    Linked g slot f' endpoints connections room := by
  cases room with
  | none => exact h
  | some room =>
    obtain ⟨r, licenses, technologies, found, node, spokes⟩ := h
    exact ⟨r, licenses, technologies, found, extend _ _ node, spokes⟩

end Extends

/-! ## Participants -/

/-- A job for an endpoint makes the node of a terminal. -/
theorem endpointJob_isTerminal (h : s.Under g) (id : ResourceId) (slot : Slot) :
    (Exclusive.endpointJob id id.text slot).run.Delivers s fun key t =>
      (terminalEndpoint t id key).IsTerminal g slot t.reservations id := by
  have both :=
    Attempt.Delivers.and (Job.run_ensures (Exclusive.orderly_endpointJob id id.text slot) s)
      (Exclusive.endpointJob_delivers h id id.text slot)
  refine both.mono ?_
  rintro key t ⟨⟨keys, builds⟩, r, found, terminal, node⟩
  have technologies : (terminalEndpoint t id key).technologies = r.technologies := by
    unfold terminalEndpoint
    rw [(h.builds builds).resource?, found]
    rfl
  refine ⟨⟨r, found, terminal, technologies⟩, rfl, rfl, ?_⟩
  rw [technologies]
  exact node

/-- By induction on the candidates: those that cannot be allocated leave nothing behind. -/
theorem tryTerminals_isTerminal (cs : List Candidate) :
    ∀ {s : Session}, s.Under g →
      (tryTerminals slot cs).Ensures s fun found t =>
        ∀ e ∈ found, ∃ c ∈ cs, e.IsTerminal g slot t.reservations c.resource := by
  induction cs with
  | nil =>
    intro s _
    exact Action.Ensures.pure fun _ never => nomatch never
  | cons c cs ih =>
    intro s h
    unfold tryTerminals
    have orderly := Exclusive.orderly_endpointJob c.resource c.resource.text slot
    have both := (Job.run_ensures orderly s).and (endpointJob_isTerminal h c.resource slot)
    refine Action.Ensures.bind (Action.Ensures.outcome both) ?_
    intro r t done
    cases r with
    | ok key =>
      apply Action.Ensures.get_bind
      apply Action.Ensures.pure
      intro e mem
      cases mem
      exact ⟨c, List.mem_cons_self, done.2⟩
    | error failure =>
      -- one that fails leaves the registry as it is, so the next candidates mean the same
      refine (ih (h.builds done.1)).mono fun found u rest e mem => ?_
      obtain ⟨d, hd, terminal⟩ := rest e mem
      exact ⟨d, List.mem_cons_of_mem _ hd, terminal⟩

theorem refuseLookup_delivers {ok : Endpoint → Session → Prop} (report : Report) :
    (refuseLookup report).Delivers s ok := by
  unfold refuseLookup
  apply Attempt.Ensures.modifyGet_bind
  apply Attempt.Ensures.modify_bind
  exact Attempt.Ensures.throw trivial

/-- An endpoint that is looked up is a terminal with one of the technologies. -/
theorem lookUp_standsFor (h : s.Under g) (technologies : TechnologySet) (index : Nat) :
    (lookUp slot technologies).Delivers s fun e t =>
      e.StandsFor g slot t.reservations index (.lookup technologies) := by
  unfold lookUp
  apply Attempt.Ensures.modify_bind
  have opened := h.of_quiet (s.quiet_openReport (.lookingUpEndpoint technologies))
  apply Attempt.Ensures.get_bind
  split
  · exact refuseLookup_delivers _
  · have surveyed (ids : List ResourceId) (t : Session) :=
      (Survey.available_ensures slot .exclusive ids t).and (Survey.available_mem ids t)
    refine Attempt.Ensures.bind (Attempt.Ensures.lift (surveyed _ _)) ?_
    rintro cs t ⟨⟨quiet, -⟩, among⟩
    refine Attempt.Ensures.bind
      (Attempt.Ensures.lift (tryTerminals_isTerminal cs (opened.of_quiet quiet))) ?_
    intro found u terminals
    cases found with
    | some endpoint =>
      apply Attempt.Ensures.modify_bind
      apply Attempt.Ensures.pure
      obtain ⟨c, hc, terminal⟩ := terminals endpoint rfl
      -- candidates are among the selected terminals, which speak one of the technologies
      obtain ⟨r, registered, fits⟩ := opened.mem_select (among c hc)
      rw [Bool.and_eq_true] at fits
      exact ⟨c.resource, terminal, r, registered, fits.2⟩
    | none => exact refuseLookup_delivers _

/-- A participant that is placed has an endpoint standing for it. -/
theorem place_standsFor (h : s.Under g) (index : Nat) (p : Participant) :
    (place slot index p).Delivers s fun e t => e.StandsFor g slot t.reservations index p := by
  cases p with
  | existing id =>
    unfold place
    refine Attempt.Ensures.bind (endpointJob_isTerminal h id slot) ?_
    intro key t terminal
    apply Attempt.Ensures.get_bind
    exact Attempt.Ensures.pure terminal
  | lookup technologies => exact lookUp_standsFor h technologies index
  | external technologies count =>
    unfold place
    apply Attempt.Ensures.modifyGet_bind
    exact Attempt.Ensures.pure ⟨rfl, rfl, rfl, h.progress.get?_insert _⟩

/-- By induction on the participants: the nodes of those before stay as they are. -/
theorem placeAll_standsFor (participants : List Participant) :
    ∀ (index : Nat) {s : Session}, s.Under g →
      (placeAll slot index participants).Delivers s fun es t =>
        List.Forall₂ (fun p e => Endpoint.StandsFor e g slot t.reservations p.2 p.1)
          (participants.zipIdx index) es := by
  induction participants with
  | nil =>
    intro index s _
    exact Attempt.Ensures.pure .nil
  | cons p ps ih =>
    intro index s h
    unfold placeAll
    refine Attempt.Ensures.bind
      (Attempt.Delivers.and (place_ensures slot index p s) (place_standsFor h index p)) ?_
    rintro e t ⟨⟨keys, builds⟩, first⟩
    have under := h.builds builds
    refine Attempt.Ensures.bind
      (Attempt.Delivers.and (placeAll_ensures ps (index + 1) t) (ih (index + 1) under)) ?_
    rintro es u ⟨⟨made, builds', -⟩, rest⟩
    -- the first endpoint still stands for its participant after the others are placed
    exact Attempt.Ensures.pure (.cons (first.extends (under.extends builds')) rest)

/-! ## Connections -/

/-- A common technology is in both sets. -/
theorem common?_eq_some {s t : TechnologySet} {technology : Technology}
    (h : common? s t = some technology) :
    technology ∈ s ∧ technology ∈ t := by
  have mem : technology ∈ s.inter t := List.mem_of_mem_head? h
  exact Selection.mem_inter.1 mem

/-- Sets that meet have one in common. -/
theorem exists_common {s t : TechnologySet} (h : TechnologySet.Meets s t) :
    ∃ technology, common? t s = some technology := by
  obtain ⟨technology, left, right⟩ := h
  have mem : technology ∈ t.inter s := Selection.mem_inter.2 ⟨right, left⟩
  unfold common?
  cases found : (t.inter s).toList with
  | nil =>
    rw [← Selection.mem_toList, found] at mem
    cases mem
  | cons first rest => exact ⟨first, rfl⟩

/-- Two single endpoints with a common technology are linked by it. -/
theorem linked_of_direct {a b : Endpoint} {connection : Connection}
    (h : direct a b = .ok connection) :
    Linked g slot f [a, b] [connection] none := by
  unfold direct at h
  split at h
  · -- no link with an endpoint that counts more than one
    cases h
  · rename_i single
    split at h
    · rename_i technology found
      cases h
      obtain ⟨left, right⟩ := common?_eq_some found
      exact ⟨a, b, technology, rfl, by omega, by omega, rfl, left, right⟩
    · cases h

/-- A direct connection links the two endpoints that there are. -/
theorem connectDirectly_linked (g : Registry) (slot : Slot) (es : List Endpoint) (s : Session) :
    (connectDirectly es).Ensures s fun found t =>
      ∀ connection ∈ found, Linked g slot t.reservations es [connection] none := by
  unfold connectDirectly
  split
  · apply Action.Ensures.modify_bind
    split
    · rename_i connection found
      apply Action.Ensures.modify_bind
      apply Action.Ensures.pure
      intro c mem
      cases mem
      exact linked_of_direct found
    · -- no direct connection is found, so there is none to be linked
      apply Action.Ensures.modify_bind
      apply Action.Ensures.modify_bind
      exact Action.Ensures.pure fun _ never => nomatch never
  · exact Action.Ensures.pure fun _ never => nomatch never

/-- The bridge is a room with the technologies, and is labelled by its resource. -/
def Bridge.Speaks (b : Bridge) (g : Registry) (slot : Slot) (f : ReservationForest)
    (technologies : TechnologySet) : Prop :=
  ∃ r licenses, g.get? r.id = some r ∧ r.supportsAll technologies ∧ b.label = s!"room {r.id.text}"
    ∧ f.get? b.key = some (.made slot (.room r.id licenses technologies))

/-- The bridge is a room with a license for each of `n` endpoints. -/
def Bridge.Seats (b : Bridge) (slot : Slot) (f : ReservationForest) (n : Nat) : Prop :=
  ∃ id technologies, f.get? b.key = some (.made slot (.room id n technologies))

/-- A bridge speaks one of the sets that are tried, and has room for as many as are asked for. -/
theorem tryBridges_speaks (slot : Slot) (participants : Nat) (sets : List TechnologySet) :
    ∀ (last : Option Failure) {s : Session}, s.Under g →
      (tryBridges slot participants last sets).Ensures s fun found t =>
        ∀ b, found = .ok b → (∃ technologies ∈ sets, b.Speaks g slot t.reservations technologies)
          ∧ b.Seats slot t.reservations participants := by
  induction sets with
  | nil =>
    intro last s _
    exact Action.Ensures.pure fun _ never => nomatch never
  | cons technologies sets ih =>
    intro last s h
    unfold tryBridges
    apply Action.Ensures.modify_bind
    have opened := h.of_quiet (s.quiet_openReport (.bridgingWithRoom technologies))
    let spec : RoomSpec := ⟨participants, technologies, none, []⟩
    have both :=
      (Job.run_ensures (spec.orderly_job slot) _).and
        (RoomSpec.job_isFurnished ⟨opened, rfl⟩ spec slot)
    refine Action.Ensures.bind (Action.Ensures.outcome both) ?_
    intro r t done
    cases r with
    | ok key =>
      apply Action.Ensures.modify_bind
      apply Action.Ensures.get_bind
      apply Action.Ensures.pure
      intro b same
      cases same
      obtain ⟨-, r, offers, -, -, speaks, node, -⟩ := done
      have label : bridgeLabel t.closeReport key = s!"room {r.id.text}" := by
        unfold bridgeLabel
        rw [show t.closeReport.reservations.get? key = _ from node]
        rfl
      exact ⟨⟨technologies, List.mem_cons_self, r, participants, offers.registered,
        Selection.isSubset_iff.2 speaks, label, node⟩, r.id, technologies, node⟩
    | error failure =>
      -- the failed attempt is closed, and the next set finds the nodes as they were
      apply Action.Ensures.modify_bind
      have next := (opened.builds done.1).of_quiet t.quiet_closeError
      refine (ih _ next).mono fun found u rest b same => ?_
      obtain ⟨⟨technologies', mem, speaks⟩, seats⟩ := rest b same
      exact ⟨⟨technologies', List.mem_cons_of_mem _ mem, speaks⟩, seats⟩

/-- The sets that are tried come from the plan for the endpoints, and so does that of the room. The
room has a license for each endpoint that has been counted. -/
theorem bridge_speaks (h : s.Under g) (slot : Slot) (es : List Endpoint) :
    (bridge slot es).Delivers s fun b t =>
      (∃ technologies, (∀ e ∈ es, TechnologySet.Meets technologies e.technologies)
        ∧ b.Speaks g slot t.reservations technologies)
      ∧ ∃ n, participantCount es = .ok n ∧ b.Seats slot t.reservations n := by
  unfold bridge
  simp only
  apply Attempt.Ensures.get_bind
  split
  · exact Attempt.Delivers.refuse
  · apply Attempt.Ensures.ask_bind
    intro participants counted
    have tried (sets : List TechnologySet) := tryBridges_speaks slot participants sets none h
    refine Attempt.Ensures.bind (Attempt.Ensures.lift (tried _)) ?_
    intro found t spoken
    split
    · rename_i b
      obtain ⟨⟨technologies, mem, speaks⟩, seats⟩ := spoken b rfl
      apply Attempt.Ensures.pure
      refine ⟨⟨technologies, fun e he => ?_, speaks⟩, participants, counted, seats⟩
      -- a set that is tried has a technology of each endpoint
      exact TechnologySet.meets_of_mem_combinations (List.mem_filter.1 mem).1 _
        (List.mem_map_of_mem he)
    · exact Attempt.Ensures.throw trivial
    · exact Attempt.Delivers.refuse

/-- No endpoint is left out, as each has a technology of the set. -/
theorem forall_spokes {technologies : TechnologySet} {r : Resource}
    (speaks : r.supportsAll technologies) (es : List Endpoint)
    (meets : ∀ e ∈ es, TechnologySet.Meets technologies e.technologies) :
    List.Forall₂ (Spoke technologies r) es (spokes s!"room {r.id.text}" technologies es) := by
  induction es with
  | nil => exact .nil
  | cons e es ih =>
    obtain ⟨technology, found⟩ := exists_common (meets e List.mem_cons_self)
    obtain ⟨own, shared⟩ := common?_eq_some found
    have spoken : technology ∈ r.technologies := by
      unfold Resource.supportsAll Selection.isSubset at speaks
      exact Selection.contains_iff.1 (List.all_eq_true.1 speaks technology shared)
    have rest := ih fun e' he' => meets e' (List.mem_cons_of_mem _ he')
    -- the first endpoint gets its spoke, as it shares a technology
    have first : spokes s!"room {r.id.text}" technologies (e :: es)
        = ⟨e.label, s!"room {r.id.text}", technology⟩
          :: spokes s!"room {r.id.text}" technologies es := by
      unfold spokes
      rw [List.filterMap_cons, found]
      rfl
    rw [first]
    exact .cons ⟨rfl, rfl, own, shared, spoken⟩ rest

/-- The plan links all endpoints, directly or by way of the room. -/
theorem connect_linked (h : s.Under g) (slot : Slot) (es : List Endpoint) :
    (connect slot es).Delivers s fun c t => Linked g slot t.reservations es c.1 c.2 := by
  unfold connect
  refine Attempt.Ensures.bind (Attempt.Ensures.lift ((connectDirectly_quiet es s).and
    (connectDirectly_linked g slot es s))) ?_
  rintro found t ⟨quiet, linked⟩
  split
  · rename_i connection
    exact Attempt.Ensures.pure (linked connection rfl)
  · refine Attempt.Ensures.bind (bridge_speaks (h.of_quiet quiet) slot es) ?_
    rintro b u ⟨⟨technologies, meets, r, licenses, found, speaks, label, node⟩, -⟩
    apply Attempt.Ensures.get_bind
    apply Attempt.Ensures.pure
    -- what the room speaks is read off its node
    have heard : roomTechnologies u b.key = technologies := by
      unfold roomTechnologies
      rw [node]
      rfl
    refine ⟨r, licenses, technologies, found, node, ?_⟩
    show List.Forall₂ _ es (spokes b.label (roomTechnologies u b.key) es)
    rw [heard, label]
    exact forall_spokes speaks es meets

/-! ## The node of the compartment -/

/-- Attaching changes no nodes, and adds to the children of one. -/
theorem attachAll_children (parent : Nat) (keys : List Nat) :
    ∀ s : Session, (attachAll parent keys).Ensures s fun _ t =>
      t.reservations.entries = s.reservations.entries
        ∧ t.reservations.children parent = s.reservations.children parent ++ keys := by
  induction keys with
  | nil =>
    intro s
    exact Action.Ensures.pure ⟨rfl, (List.append_nil _).symm⟩
  | cons key keys ih =>
    intro s
    unfold attachAll
    apply Action.Ensures.change_bind
    intro t linked
    obtain ⟨f, attached, rfl⟩ := Session.attach_eq_ok linked
    have children := ReservationForest.children_attach attached parent
    obtain ⟨-, -, rfl⟩ := ReservationForest.attach_eq_ok attached
    -- children are attached at the end, in their order
    refine (ih _).mono fun _ u done => ⟨done.1, ?_⟩
    rw [done.2, children, if_pos rfl, List.append_assoc]
    rfl

/-- The node of the compartment is made over the nodes that are there, and adopts those of the
keys. -/
theorem adopt_delivers (start : s.reservations.InProgress) (node : Reservation) (keys : List Nat) :
    (do
      let key ← modifyGet (·.create node)
      attachAll key keys
      pure key : Attempt Nat).Delivers s fun key t => s.reservations.Extends t.reservations
        ∧ t.reservations.get? key = some node ∧ t.reservations.children key = keys := by
  apply Attempt.Ensures.modifyGet_bind
  refine Attempt.Ensures.bind (Attempt.Ensures.lift (attachAll_children s.reservations.nextKey keys
    (s.create node).2)) ?_
  rintro _ t ⟨entries, children⟩
  apply Attempt.Ensures.pure
  have same (key : Nat) : t.reservations.get? key = (s.reservations.insert node).get? key := by
    show (t.reservations.entries.find? _).map _ = _
    rw [entries]
    rfl
  refine ⟨fun key node' found => ?_, (same _).trans (start.get?_insert node), children.trans ?_⟩
  · rw [same]
    exact ((ReservationForest.Grows.refl _).insert node).get? found
  · -- the key of the new node is fresh, so it had no children before
    show s.reservations.children s.reservations.nextKey ++ _ = _
    rw [start.children_nextKey, List.nil_append]

end Conference.Compartment
