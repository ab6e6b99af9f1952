import Conference.Allocation.Recording
import Conference.Proofs.Granted.Nodes
import Conference.Proofs.Granted.Provision
import Conference.Proofs.Reservation.Parts

/-!
# What each kind hands over

A single resource, an alias, a recording or a room that is allocated is as its specification asks
for, with all the nodes below it. Each part of that is settled elsewhere: the survey settles which
resources come into question and that they may be booked, the choice of a value settles the aliases,
and the links settle which node is below which. Whatever is tried in vain before leaves no trace.
-/

namespace Conference

/-! ## Resources on offer -/

/-- The resource is registered, and may be booked for a slot in a pass on an interval. -/
structure Registry.Offers (g : Registry) (interval slot : Slot) (r : Resource) : Prop where
  registered : g.get? r.id = some r
  allocatable : r.allocatable
  inTime : r.InTime slot interval.start

/-- The resource under the identifier is usable, and no other one is asked for. -/
def Registry.Qualifies (g : Registry) (given : Option ResourceId) (usable : Resource → Bool)
    (id : ResourceId) :
    Prop :=
  ∃ r, g.get? id = some r ∧ usable r ∧ ∀ k, given = some k → id = k

/-- The resource is on offer and usable, and no other one is asked for. -/
structure Registry.Suits (g : Registry) (interval slot : Slot) (given : Option ResourceId)
    (usable : Resource → Bool) (r : Resource) : Prop where
  offers : g.Offers interval slot r
  usable : usable r
  given : ∀ k, given = some k → r.id = k

/-- A resource that qualifies and is offered suits. -/
theorem Registry.Qualifies.suits {g : Registry} {interval slot : Slot} {given : Option ResourceId}
    {usable : Resource → Bool} {r : Resource} (h : g.Qualifies given usable r.id)
    (offers : g.Offers interval slot r) :
    g.Suits interval slot given usable r := by
  obtain ⟨r', found, fits, same⟩ := h
  rw [offers.registered] at found
  cases found
  exact ⟨offers, fits, same⟩

/-- The session knows the resources of a registry, and works in a pass on an interval. -/
structure Session.Serves (g : Registry) (interval : Slot) (s : Session) : Prop where
  under : s.Under g
  interval : s.ledger.workingInterval = interval

namespace Session

variable {g : Registry} {interval slot : Slot} {s t : Session} {made : List (List Nat)}

/-- Quiet steps serve the same registry over the same interval. -/
theorem Serves.of_quiet (h : s.Serves g interval) (quiet : s.Quiet t) : t.Serves g interval :=
  ⟨h.under.of_quiet quiet, (quiet.agrees.workingInterval).trans h.interval⟩

/-- So do the steps that build. -/
theorem Serves.builds (h : s.Serves g interval) (builds : s.Builds t made) : t.Serves g interval :=
  ⟨h.under.builds builds, builds.agrees.workingInterval.trans h.interval⟩

/-- A resource that passes the check is on offer. -/
theorem Serves.offers (h : s.Serves g interval) {id : ResourceId} {r : Resource}
    (passed : (s.checkResource id slot).1 = .ok r) : r.id = id ∧ g.Offers interval slot r := by
  have found : g.get? id = some r :=
    (h.under.resource? id).symm.trans (resource?_of_checkResource passed)
  have named : r.id = id := Registry.id_of_get? found
  have known : s.resource? id = some r := (h.under.resource? id).trans found
  -- the check passes in one of its three branches only
  unfold checkResource at passed
  simp only [known, h.interval] at passed
  split at passed
  · cases passed
  · rename_i allocatable
    split at passed
    · cases passed
    · rename_i inTime
      exact ⟨named, named ▸ found, by simpa using allocatable,
        Resource.inTime_iff.2 (by simpa using inTime)⟩

/-- What is built leaves the children of each node that is there. -/
theorem Under.keeps (h : s.Under g) (builds : s.Builds t made) (parent : Nat) :
    s.reservations.Keeps parent t.reservations := by
  obtain ⟨new, added, grows⟩ := builds.grows h.progress
  exact grows.forest.keeps h.progress parent

end Session

namespace Survey

variable {g : Registry} {interval slot : Slot} {s : Session} {dimension : Dimension}
  {given : Option ResourceId} {usable : Resource → Bool}

/-- When a resource is given, no other one is eligible. -/
theorem eligible_given_only (given : Option ResourceId) (slot : Slot) (usable : Resource → Bool)
    (capability : String) (s : Session) :
    (eligible given slot usable capability).Delivers s fun ids _ =>
      ∀ id ∈ ids, ∀ k, given = some k → id = k := by
  unfold eligible
  -- without a given resource there is nothing to show
  cases given with
  | some id =>
    apply Attempt.Ensures.modifyGet_bind
    split
    · exact Attempt.Delivers.refuse
    · split
      · apply Attempt.Ensures.pure
        rintro id' mem k ⟨⟩
        exact List.mem_singleton.1 mem
      · exact Attempt.Delivers.refuse
  | none =>
    apply Attempt.Ensures.get_bind
    split
    · exact Attempt.Delivers.refuse
    · exact Attempt.Ensures.pure fun _ _ _ never => nomatch never

/-- The resources that come into question qualify. -/
theorem eligible_qualifies (h : s.Serves g interval) (given : Option ResourceId) (slot : Slot)
    (usable : Resource → Bool) (capability : String) :
    (eligible given slot usable capability).Delivers s fun ids t =>
      t.Serves g interval ∧ ∀ id ∈ ids, g.Qualifies given usable id := by
  refine (Attempt.Delivers.and (eligible_ensures given slot usable capability s)
    (Attempt.Delivers.and (eligible_usable h.under given usable capability)
      (eligible_given_only given slot usable capability s))).mono ?_
  rintro ids t ⟨quiet, fits, only⟩
  refine ⟨h.of_quiet quiet, fun id mem => ?_⟩
  obtain ⟨r, found, usable⟩ := fits id mem
  exact ⟨r, found, usable, only id mem⟩

/-- By induction on the resources: what has been examined is quiet, so the check goes on by the same
interval. -/
theorem examineAll_offers (slot : Slot) (dimension : Dimension) (ids : List ResourceId) :
    ∀ {s : Session}, s.Serves g interval →
      (examineAll slot dimension ids).Ensures s fun cs _ =>
        ∀ c ∈ cs, ∃ r, r.id = c.resource ∧ g.Offers interval slot r := by
  induction ids with
  | nil =>
    intro s _
    exact Action.Ensures.pure fun _ never => nomatch never
  | cons id ids ih =>
    intro s h
    unfold examineAll
    refine Action.Ensures.bind
      ((examine_ensures slot dimension id s).and (examine_checks slot dimension id s)) ?_
    rintro found t ⟨⟨quiet, -⟩, checked⟩
    refine Action.Ensures.bind (ih (h.of_quiet quiet)) ?_
    intro others u rest
    apply Action.Ensures.pure
    intro c mem
    rcases List.mem_append.1 mem with first | later
    · -- a candidate of the first resource has passed its check
      obtain ⟨named, r, passed⟩ := checked c first
      obtain ⟨same, offers⟩ := h.offers passed
      exact ⟨r, same.trans named.symm, offers⟩
    · exact rest c later

/-- Every candidate is on offer: it has passed the check of the survey, and ranking adds none. -/
theorem candidates_offers (h : s.Serves g interval) (given : Option ResourceId) (slot : Slot)
    (dimension : Dimension) (ids : List ResourceId) :
    (candidates given slot dimension ids).Ensures s fun cs _ =>
      ∀ c ∈ cs, ∃ r, r.id = c.resource ∧ g.Offers interval slot r := by
  have opened := h.of_quiet (s.quiet_openReport .findingAvailableResource)
  have surveyed : (available slot dimension ids).Ensures s fun cs _ =>
      ∀ c ∈ cs, ∃ r, r.id = c.resource ∧ g.Offers interval slot r := by
    unfold available
    apply Action.Ensures.modify_bind
    refine Action.Ensures.bind (examineAll_offers slot dimension ids opened) ?_
    intro cs t offers
    apply Action.Ensures.modify_bind
    exact Action.Ensures.pure offers
  unfold candidates
  refine Action.Ensures.bind surveyed ?_
  intro cs t offers
  -- ranking permutes the candidates, and without it they stay as found
  split
  · unfold rank
    apply Action.Ensures.modify_bind
    exact Action.Ensures.pure fun c mem => offers c ((Candidate.rank_perm cs).mem_iff.1 mem)
  · exact Action.Ensures.pure offers

/-- The candidates among resources that qualify suit. -/
theorem candidates_suits (h : s.Serves g interval) {ids : List ResourceId}
    (qualified : ∀ id ∈ ids, g.Qualifies given usable id) (slot : Slot) (dimension : Dimension) :
    (candidates given slot dimension ids).Ensures s fun cs t =>
      t.Serves g interval
        ∧ ∀ c ∈ cs, ∃ r, r.id = c.resource ∧ g.Suits interval slot given usable r := by
  refine (((candidates_ensures given slot dimension ids s).and (candidates_mem given ids s)).and
    (candidates_offers h given slot dimension ids)).mono ?_
  rintro cs t ⟨⟨⟨quiet, -⟩, among⟩, offers⟩
  refine ⟨h.of_quiet quiet, fun c mem => ?_⟩
  obtain ⟨r, named, offered⟩ := offers c mem
  have fit := qualified _ (among c mem)
  rw [← named] at fit
  exact ⟨r, named, fit.suits offered⟩

end Survey

/-! ## Exclusive use -/

namespace Exclusive

/-- The node under a key is for the resource, and has nothing below it. -/
def IsTaken (id : ResourceId) (g : Registry) (interval slot : Slot) (f : ReservationForest)
    (key : Nat) : Prop :=
  ∃ r, r.id = id ∧ g.Offers interval slot r
    ∧ f.get? key = some (.made slot (.resource id)) ∧ f.children key = []

variable {g : Registry} {interval slot : Slot} {s : Session}

end Exclusive

/-! ## Aliases -/

namespace AliasSpec

/-- The provider of a resource may hand out the value, and the aliases are those that it makes of
it. There are some, of all types that are asked for, and with one of the technologies if any are
asked for. -/
structure Provides (spec : AliasSpec) (target : Option ResourceId) (r : Resource)
    (provider : AliasProvider) (value : String) (aliases : List Alias) : Prop where
  found : r.aliasProvider? = some provider
  own : provider.restricted → target = some r.id
  requested : ∀ v, spec.value = some v → value = v ∧ provider.pool.Takes v
  made : spec.Instantiates value provider.templates aliases
  nonempty : aliases ≠ []
  types : ∀ type ∈ spec.types, ∃ a ∈ aliases, a.type = type
  technology : (∃ other, other ∈ spec.technologies) →
    ∃ a ∈ aliases, ∃ technology ∈ spec.technologies, a.type.technology? = some technology

/-- The node under a key is for aliases as specified. It has one child, which is for the value that
the aliases are made of, on the same resource. -/
def IsAlias (spec : AliasSpec) (target : Option ResourceId) (g : Registry) (interval slot : Slot)
    (f : ReservationForest) (key : Nat) : Prop :=
  ∃ r provider value aliases child,
    g.Offers interval slot r ∧ (∀ id, spec.resource = some id → r.id = id)
      ∧ spec.Provides target r provider value aliases
      ∧ f.get? key = some (.made slot (.aliases r.id aliases))
      ∧ f.children key = [child]
      ∧ f.get? child = some (.made slot (.value r.id value))
      ∧ f.children child = []

variable {spec : AliasSpec} {target : Option ResourceId} {g : Registry}
  {interval slot : Slot} {s : Session}

/-- An alias stays what it is while children are added to a room. -/
theorem IsAlias.keeps {f f' : ReservationForest} {key room licenses : Nat} {host : ResourceId}
    {technologies : TechnologySet} (h : spec.IsAlias target g interval slot f key)
    (hosted : f.get? room = some (.made slot (.room host licenses technologies)))
    (keeps : f.Keeps room f') :
    spec.IsAlias target g interval slot f' key := by
  obtain ⟨r, provider, value, aliases, child, offers, given, provides, node, children,
    below, childless⟩ := h
  obtain ⟨node', children'⟩ := keeps _ _ node
  obtain ⟨below', childless'⟩ := keeps _ _ below
  -- neither of the two nodes is the room
  have apart : key ≠ room := by
    rintro rfl
    rw [node] at hosted
    cases hosted
  have apart' : child ≠ room := by
    rintro rfl
    rw [below] at hosted
    cases hosted
  exact ⟨r, provider, value, aliases, child, offers, given, provides, node',
    (children' apart).trans children, below', (childless' apart').trans childless⟩

/-- A provider that can provide what is asked for makes aliases of each value. -/
theorem made_of_canProvide {provider : AliasProvider}
    (provided : provider.canProvide spec.types spec.technologies) (value : String) :
    let aliases := (provider.matching spec.types spec.technologies).map (·.generate value)
    aliases ≠ [] ∧ (∀ type ∈ spec.types, ∃ a ∈ aliases, a.type = type)
      ∧ ((∃ other, other ∈ spec.technologies) →
        ∃ a ∈ aliases, ∃ technology ∈ spec.technologies, a.type.technology? = some technology) := by
  intro aliases
  unfold AliasProvider.canProvide at provided
  simp only [Bool.and_eq_true, Bool.not_eq_true', List.isEmpty_eq_false_iff] at provided
  obtain ⟨⟨found, types⟩, speaks⟩ := provided
  refine ⟨mt List.map_eq_nil_iff.1 found, fun type mem => ?_, fun given => ?_⟩
  · -- each type that is asked for has a template, and what it makes is of this type
    obtain ⟨t, fits, same⟩ := List.any_eq_true.1 (List.all_eq_true.1 types type mem)
    exact ⟨t.generate value, List.mem_map_of_mem fits, eq_of_beq same⟩
  · rw [Bool.or_eq_true] at speaks
    obtain ⟨t, fits, same⟩ :=
      List.any_eq_true.1 (speaks.resolve_left (Selection.exists_mem_iff.1 given))
    refine ⟨t.generate value, List.mem_map_of_mem fits, ?_⟩
    split at same
    · rename_i technology speaks
      exact ⟨technology, Selection.contains_iff.1 same, speaks⟩
    · cases same

/-- A usable resource provides whatever value is handed out for the alias. -/
theorem provides_of_isUsable {r : Resource} {provider : AliasProvider} {value : String}
    (usable : spec.isUsable target r) (found : r.aliasProvider? = some provider)
    (asked : ∀ v, spec.value = some v → value = v ∧ provider.pool.accepts v) :
    spec.Provides target r provider value
      ((provider.matching spec.types spec.technologies).map (·.generate value)) := by
  unfold isUsable at usable
  rw [found] at usable
  simp only [Bool.and_eq_true, Bool.not_eq_true', Bool.and_eq_false_imp,
    decide_eq_false_iff_not, not_not] at usable
  obtain ⟨own, provided⟩ := usable
  obtain ⟨nonempty, types, technology⟩ := made_of_canProvide provided value
  have takes (v : String) (same : spec.value = some v) : value = v ∧ provider.pool.Takes v :=
    ⟨(asked v same).1, Pool.takes_iff.2 (asked v same).2⟩
  exact ⟨found, own, takes, (instantiates_iff _).2 rfl, nonempty, types, technology⟩

/-- A value that is asked for is the one that is picked, and the provider accepts it. -/
theorem pickValue_asked (spec : AliasSpec) (slot : Slot) (id : ResourceId)
    (provider : AliasProvider) (s : Session) :
    (spec.pickValue slot id provider).Ensures s fun picked _ => ∀ value, picked = some value →
      ∀ v, spec.value = some v → value = v ∧ provider.pool.accepts v := by
  unfold pickValue
  apply Action.Ensures.ask_bind
  intro used _
  split
  · -- a value is asked for, and accepted before it is picked
    rename_i wanted asked
    split
    · apply Action.Ensures.modify_bind
      exact Action.Ensures.pure fun _ never => nomatch never
    · rename_i accepted
      split
      · apply Action.Ensures.modify_bind
        exact Action.Ensures.pure fun _ never => nomatch never
      · apply Action.Ensures.pure
        rintro value ⟨⟩ v same
        rw [asked] at same
        cases same
        exact ⟨rfl, by simpa using accepted⟩
  · rename_i free
    split
    · exact Action.Ensures.pure fun _ _ v same => nomatch free.symm.trans same
    · apply Action.Ensures.modify_bind
      exact Action.Ensures.pure fun _ never => nomatch never

/-- The two nodes of an alias are made and linked. -/
theorem reserve_isAlias (progress : s.reservations.InProgress) {r : Resource}
    {provider : AliasProvider} {value : String} (offers : g.Offers interval slot r)
    (given : ∀ id, spec.resource = some id → r.id = id)
    (provides : spec.Provides target r provider value
      ((provider.matching spec.types spec.technologies).map (·.generate value))) :
    (spec.reserve slot r.id provider value).Ensures s fun key t =>
      spec.IsAlias target g interval slot t.reservations key := by
  unfold reserve
  -- the alias and its value are two nodes, one below the other
  apply Action.Ensures.modifyGet_bind
  apply Action.Ensures.modifyGet_bind
  apply Action.Ensures.change_bind
  intro t linked
  obtain ⟨f, attached, rfl⟩ := Session.attach_eq_ok linked
  apply Action.Ensures.pure
  obtain ⟨node, children, below, childless⟩ := progress.attach_pair attached
  exact ⟨r, provider, value, _, _, offers, given, provides, node, children, below, childless⟩

/-- By induction on the candidates: one whose provider has no value to hand out makes no nodes. -/
theorem tryAll_isAlias (cs : List Candidate) :
    ∀ {s : Session}, s.Serves g interval →
      (∀ c ∈ cs, ∃ r, r.id = c.resource
        ∧ g.Suits interval slot spec.resource (spec.isUsable target) r) →
      (spec.tryAll slot cs).Ensures s fun found t =>
        ∀ key, found = some key → spec.IsAlias target g interval slot t.reservations key := by
  induction cs with
  | nil =>
    intro s _ _
    exact Action.Ensures.pure fun _ never => nomatch never
  | cons c cs ih =>
    intro s h suit
    obtain ⟨r, named, suits⟩ := suit c List.mem_cons_self
    have rest (d : Candidate) (mem : d ∈ cs) := suit d (List.mem_cons_of_mem _ mem)
    have known : s.resource? c.resource = some r := by
      rw [← named, h.under.resource?]
      exact suits.offers.registered
    unfold tryAll
    apply Action.Ensures.get_bind
    -- the provider is looked up once more, in a registry that knows the same resources
    rw [known]
    simp only [Option.bind_some, ← named]
    split
    · exact ih h rest
    · rename_i provider provided
      apply Action.Ensures.modify_bind
      have opened := h.of_quiet (s.quiet_openReport (.allocatingValue r.id))
      refine Action.Ensures.bind ((pickValue_ensures spec slot r.id provider _).and
        (pickValue_asked spec slot r.id provider _)) ?_
      rintro picked t ⟨⟨quiet, -⟩, asked⟩
      have after := opened.of_quiet quiet
      cases picked with
      | none =>
        apply Action.Ensures.modify_bind
        exact ih (after.of_quiet t.quiet_closeError) rest
      | some value =>
        apply Action.Ensures.modify_bind
        apply Action.Ensures.map
        have closed := after.of_quiet t.quiet_closeReport
        refine (reserve_isAlias closed.under.progress suits.offers suits.given
          (provides_of_isUsable suits.usable provided (asked value rfl))).mono ?_
        rintro key u made _ ⟨⟩
        exact made

/-- An alias that is granted suits what was asked for, whichever candidate it is from. -/
theorem allocate_isAlias (h : s.Serves g interval) (spec : AliasSpec) (target : Option ResourceId)
    (slot : Slot) :
    (spec.allocate target slot).Delivers s fun key t =>
      spec.IsAlias target g interval slot t.reservations key := by
  unfold allocate
  refine Attempt.Ensures.bind
    (Survey.eligible_qualifies h spec.resource slot (spec.isUsable target) _) ?_
  rintro ids t ⟨serves, qualified⟩
  refine Attempt.Ensures.bind
    (Attempt.Ensures.lift (Survey.candidates_suits serves qualified slot .values)) ?_
  rintro cs u ⟨serves', suit⟩
  refine Attempt.Ensures.bind (Attempt.Ensures.lift (tryAll_isAlias cs serves' suit)) ?_
  intro found v made
  -- a key is only found where a provider had a value to spare
  cases found with
  | some key => exact Attempt.Ensures.pure (made key rfl)
  | none =>
    apply Attempt.Ensures.get_bind
    exact Attempt.Delivers.refuse

/-- The same for the job, whose own report changes nothing of this. -/
theorem job_isAlias (h : s.Serves g interval) (spec : AliasSpec) (target : Option ResourceId)
    (slot : Slot) :
    (spec.job target slot).run.Delivers s fun key t =>
      spec.IsAlias target g interval slot t.reservations key := by
  apply Job.run_delivers
  exact allocate_isAlias (h.of_quiet (s.quiet_enter _)) spec target slot

end AliasSpec

/-! ## Recordings -/

namespace RecordingSpec

/-- The node under a key is for a recording as specified, and has nothing below it. -/
def IsRecording (spec : RecordingSpec) (g : Registry) (interval slot : Slot) (f : ReservationForest)
    (key : Nat) :
    Prop :=
  ∃ r, g.Offers interval slot r ∧ (∀ id, spec.resource = some id → r.id = id) ∧ r.recording?.isSome
    ∧ (∀ technology ∈ spec.executable.technologies, technology ∈ r.technologies)
    ∧ spec.executable.slot.contains slot
    ∧ f.get? key = some ((Reservation.made slot
      (.recordingService r.id spec.executable.id spec.enabled
        spec.licenses)).withExecutable spec.executable.id)
    ∧ f.children key = []

variable {spec : RecordingSpec} {g : Registry} {interval slot : Slot} {s : Session}

end RecordingSpec

/-! ## Rooms -/

namespace RoomSpec

/-- The node under a key is for a room as specified, and has a child for each of the aliases in
their order. -/
def IsFurnished (spec : RoomSpec) (g : Registry) (interval slot : Slot) (f : ReservationForest)
    (key : Nat) : Prop :=
  ∃ r, g.Offers interval slot r ∧ (∀ id, spec.resource = some id → r.id = id)
    ∧ r.roomProvider?.isSome
    ∧ (∀ technology ∈ spec.technologies, technology ∈ r.technologies)
    ∧ f.get? key = some (.made slot (.room r.id spec.participants spec.technologies))
    ∧ List.Forall₂ (fun a child => a.IsAlias (some r.id) g interval slot f child) spec.aliases
      (f.children key)

variable {spec : RoomSpec} {g : Registry} {interval slot : Slot} {s : Session}

/-- An alias that is allocated for a room becomes its last child. -/
theorem runUnder_isAlias (h : s.Serves g interval) {room licenses : Nat} {host : ResourceId}
    {technologies : TechnologySet} (a : AliasSpec)
    (hosted : s.reservations.get? room = some (.made slot (.room host licenses technologies))) :
    ((a.job (some host) slot).runUnder room).Delivers s fun child t =>
      t.Serves g interval ∧ s.reservations.Keeps room t.reservations
        ∧ t.reservations.children room = s.reservations.children room ++ [child]
        ∧ a.IsAlias (some host) g interval slot t.reservations child := by
  unfold Job.runUnder
  refine Attempt.Ensures.bind
    (Attempt.Delivers.and (Job.run_ensures (AliasSpec.orderly_job a (some host) slot) s)
      (AliasSpec.job_isAlias h a (some host) slot)) ?_
  rintro child t ⟨⟨keys, builds⟩, made⟩
  apply Attempt.Ensures.change_bind
  intro u linked
  apply Attempt.Ensures.pure
  have serves := h.builds builds
  have keeps := h.under.keeps builds room
  obtain ⟨f, attached, rfl⟩ := Session.attach_eq_ok linked
  have onward := ReservationForest.keeps_attach attached
  refine ⟨⟨⟨serves.under.distinct, serves.under.resources, serves.under.progress.attach attached⟩,
    serves.interval⟩, keeps.trans onward, ?_, made.keeps (keeps _ _ hosted).1 onward⟩
  -- the job links new nodes only, so up to now the room has got no child by it
  have before : t.reservations.children room = s.reservations.children room := by
    obtain ⟨new, added, grows⟩ := builds.grows h.under.progress
    exact grows.forest.children (h.under.progress.lt_nextKey hosted)
  rw [ReservationForest.children_attach attached, if_pos rfl, before]

/-- By induction on the aliases: those that have been added stay as they are. -/
theorem addAliases_isAlias {room licenses : Nat} {host : ResourceId} {technologies : TechnologySet}
    (specs : List AliasSpec) :
    ∀ {s : Session}, s.Serves g interval →
      s.reservations.get? room = some (.made slot (.room host licenses technologies)) →
      (addAliases slot host room specs).Delivers s fun _ t =>
        s.reservations.Keeps room t.reservations
          ∧ ∃ keys, t.reservations.children room = s.reservations.children room ++ keys
            ∧ List.Forall₂ (fun a child =>
              a.IsAlias (some host) g interval slot t.reservations child) specs keys := by
  induction specs with
  | nil =>
    intro s _ _
    exact Attempt.Ensures.pure ⟨.refl room _, [], (List.append_nil _).symm, .nil⟩
  | cons a specs ih =>
    intro s h hosted
    unfold addAliases
    refine Attempt.Ensures.bind (runUnder_isAlias h a hosted) ?_
    rintro child t ⟨serves, keeps, children, made⟩
    -- the room is still there with its node, now with one child more
    have hosted' := (keeps _ _ hosted).1
    refine (ih serves hosted').mono ?_
    rintro _ u ⟨onward, keys, others, rest⟩
    refine ⟨keeps.trans onward, child :: keys, ?_, .cons (made.keeps hosted' onward) rest⟩
    rw [others, children, List.append_assoc]
    rfl

/-- A room that is placed has just the aliases asked for below it, in their order. -/
theorem place_isFurnished {c : Candidate} {r : Resource} (h : s.Serves g interval)
    (named : r.id = c.resource) (suits : g.Suits interval slot spec.resource spec.isUsable r) :
    (spec.place slot c).Ensures s fun found t =>
      ∀ key, found = some key → spec.IsFurnished g interval slot t.reservations key := by
  unfold place
  rw [← named]
  apply Action.Ensures.modify_bind
  have opened := h.of_quiet (s.quiet_openReport (.allocatingResource r.id))
  generalize s.openReport (.allocatingResource r.id) = t at opened
  apply Action.Ensures.ask_bind
  intro used _
  simp only
  split
  · apply Action.Ensures.modify_bind
    apply Action.Ensures.modify_bind
    exact Action.Ensures.pure fun _ never => nomatch never
  · apply Action.Ensures.get_bind
    apply Action.Ensures.modifyGet_bind
    -- the node of the room is there first, and its aliases do nothing to it but become its children
    let node := Reservation.made slot (.room r.id spec.participants spec.technologies)
    have start := opened.under.progress
    have created : (t.create node).2.Serves g interval :=
      ⟨⟨opened.under.distinct, opened.under.resources,
        start.of_grows ((ReservationForest.Grows.refl _).insert node)⟩,
        (t.workingInterval_create node).trans opened.interval⟩
    have hosted : (t.create node).2.reservations.get? t.reservations.nextKey = some node :=
      start.get?_insert node
    refine Action.Ensures.bind
      (Action.Ensures.outcome (addAliases_isAlias spec.aliases created hosted)) ?_
    intro outcome u done
    -- a room whose aliases cannot be had is taken back
    cases outcome with
    | error failure =>
      apply Action.Ensures.modify_bind
      apply Action.Ensures.modify_bind
      exact Action.Ensures.pure fun _ never => nomatch never
    | ok _ =>
      apply Action.Ensures.modify_bind
      apply Action.Ensures.pure
      rintro _ ⟨⟩
      obtain ⟨keeps, keys, children, aliases⟩ := done
      have childless : (t.create node).2.reservations.children t.reservations.nextKey = [] :=
        (ReservationForest.children_insert _ _ _).trans start.children_nextKey
      have furniture : u.reservations.children t.reservations.nextKey = keys :=
        children.trans (congrArg (· ++ keys) childless)
      have usable := suits.usable
      unfold isUsable at usable
      rw [Bool.and_eq_true] at usable
      refine ⟨r, suits.offers, suits.given, usable.1, Selection.isSubset_iff.1 usable.2,
        (keeps _ _ hosted).1, ?_⟩
      show List.Forall₂ _ spec.aliases (u.reservations.children t.reservations.nextKey)
      rw [furniture]
      exact aliases

/-- By induction on the candidates. One on which the room cannot be placed leaves nothing to the
next one. -/
theorem tryAll_isFurnished (cs : List Candidate) :
    ∀ {s : Session}, s.Serves g interval →
      (∀ c ∈ cs, ∃ r, r.id = c.resource ∧ g.Suits interval slot spec.resource spec.isUsable r
        ∧ c.maximum = (r.capacity? .roomLicenses).getD 0) →
      (spec.tryAll slot cs).Ensures s fun found t =>
        ∀ key, found = some key → spec.IsFurnished g interval slot t.reservations key := by
  induction cs with
  | nil =>
    intro s _ _
    exact Action.Ensures.pure fun _ never => nomatch never
  | cons c cs ih =>
    intro s h suit
    obtain ⟨r, named, suits, most⟩ := suit c List.mem_cons_self
    have known : s.resource? c.resource = some r := by
      rw [← named, h.under.resource?]
      exact suits.offers.registered
    have placed : (spec.place slot c).Ensures s s.Places := place_places ⟨r, known, most⟩
    unfold tryAll
    refine Action.Ensures.bind (placed.and (place_isFurnished h named suits)) ?_
    rintro found t ⟨left, furnished⟩
    cases found with
    | some key => exact Action.Ensures.pure furnished
    | none =>
      -- a room that could not be furnished has been taken back
      have nothing : s.Builds t [] := left
      exact ih (h.builds nothing) fun d mem => suit d (List.mem_cons_of_mem _ mem)

/-- A room that is granted is furnished. -/
theorem allocate_isFurnished (h : s.Serves g interval) (spec : RoomSpec) (slot : Slot) :
    (spec.allocate slot).Delivers s fun key t =>
      spec.IsFurnished g interval slot t.reservations key := by
  unfold allocate
  refine Attempt.Ensures.bind (Survey.eligible_qualifies h spec.resource slot spec.isUsable _) ?_
  rintro ids t ⟨serves, qualified⟩
  refine Attempt.Ensures.bind
    (Attempt.Ensures.lift ((Survey.candidates_ensures spec.resource slot .roomLicenses ids t).and
      (Survey.candidates_suits serves qualified slot .roomLicenses))) ?_
  rintro cs u ⟨⟨-, accurate⟩, serves', suit⟩
  -- the survey gives the licenses of the resource, the offer says which one it is
  have known (c : Candidate) (mem : c ∈ cs) : ∃ r, r.id = c.resource
      ∧ g.Suits interval slot spec.resource spec.isUsable r
      ∧ c.maximum = (r.capacity? .roomLicenses).getD 0 := by
    obtain ⟨r, named, suits⟩ := suit c mem
    obtain ⟨r', found, most⟩ := (accurate c mem).maximum
    rw [serves.under.resource?, ← named, suits.offers.registered] at found
    cases found
    exact ⟨r, named, suits, most⟩
  refine Attempt.Ensures.bind (Attempt.Ensures.lift (tryAll_isFurnished cs serves' known)) ?_
  intro found v furnished
  cases found with
  | some key => exact Attempt.Ensures.pure (furnished key rfl)
  | none => exact Attempt.Delivers.refuse

/-- The same for the job. -/
theorem job_isFurnished (h : s.Serves g interval) (spec : RoomSpec) (slot : Slot) :
    (spec.job slot).run.Delivers s fun key t =>
      spec.IsFurnished g interval slot t.reservations key := by
  apply Job.run_delivers
  exact allocate_isFurnished (h.of_quiet (s.quiet_enter _)) spec slot

end RoomSpec

end Conference
