import Conference.Proofs.Allocation.Compartment
import Conference.Proofs.Parallel.Exclusive
import Conference.Proofs.Parallel.Room

/-!
# Compartments in alike sessions

A compartment hands keys and failures from one part to the next, so here the sessions have to agree
on both. The only fault that it can meet is a count of participants that does not fit.
-/

namespace Conference.Compartment

open Session (FailAlike KeyAlike)

variable {slot : Slot} {G : Ground} {k : Likeness slot} {read : List ResourceId} {s t : Session}
  {allowed : Fault → Prop}

/-- Both runs come to the same. -/
def SameAlike {α : Type} (G : Ground) (k : Likeness slot) (read : List ResourceId) (x : α)
    (s : Session) (y : α) (t : Session) : Prop :=
  y = x ∧ s.Alike G k read t

section Agreeing

variable (exact_keys : k.ahead = 0) (exact_reports : k.Reports)

include exact_keys in
/-- With equal keys, alike sessions have equal forests. -/
theorem reservations_eq (h : s.Alike G k read t) : t.reservations = s.reservations := by
  rw [h.reservations, exact_keys, ReservationForest.shift_zero]

include exact_keys exact_reports in
/-- A job comes to the same key, or to the same failure. -/
theorem run_pairs {job : Job} (steady : job.Steady allowed G k) (h : s.Alike G k read t) :
    job.run.Pairs allowed s job.run t (SameAlike G k read) (SameAlike G k read) := by
  refine (Job.run_steady steady h).mono ?_ ?_
  · rintro key s' key' t' ⟨same, h'⟩
    rw [exact_keys] at same
    exact ⟨same, h'⟩
  · rintro e s' e' t' ⟨same, h'⟩
    exact ⟨same exact_reports, h'⟩

include exact_reports in
/-- Both refuse with the same failure. -/
theorem refuse_pairs {α : Type} (h : s.Alike G k read t) (report : Report)
    {ok : α → Session → α → Session → Prop} :
    (Attempt.refuse report : Attempt α).Pairs allowed s (Attempt.refuse report : Attempt α) t ok
      (SameAlike G k read) :=
  Attempt.Pairs.refuse ⟨(h.fail report).1 exact_reports, (h.fail report).2⟩

/-! ## Participants -/

/-- The endpoint of a terminal depends on what is registered, which is the same in both. -/
theorem terminalEndpoint_eq (h : s.Alike G k read t) (id : ResourceId) (key : Nat) :
    terminalEndpoint t id key = terminalEndpoint s id key := by
  unfold terminalEndpoint
  rw [h.left.resource?_eq h.right]

include exact_keys exact_reports in
/-- By induction on the candidates: one that fails on one side fails on the other. -/
theorem tryTerminals_pairs (cs : List Candidate) :
    ∀ {s t : Session}, s.Alike G k read t →
      (tryTerminals slot cs).Pairs allowed s (tryTerminals slot cs) t (SameAlike G k read) := by
  induction cs with
  | nil => exact fun h => Action.Pairs.pure ⟨rfl, h⟩
  | cons c cs ih =>
    intro s t h
    unfold tryTerminals
    refine Action.Pairs.outcome_bind (run_pairs exact_keys exact_reports
      (Exclusive.endpointJob_steady c.resource c.resource.text) h) ?_ ?_
    · rintro key s' key' t' ⟨rfl, h'⟩
      apply Action.Pairs.get_bind
      refine Action.Pairs.pure ⟨?_, h'⟩
      rw [terminalEndpoint_eq h']
    · -- both jobs have failed, and both go on
      rintro _ s' _ t' ⟨-, h'⟩
      exact ih h'

include exact_reports in
/-- Both give up the lookup. -/
theorem refuseLookup_pairs (h : s.Alike G k read t) (report : Report)
    {ok : Endpoint → Session → Endpoint → Session → Prop} :
    (refuseLookup report).Pairs allowed s (refuseLookup report) t ok (SameAlike G k read) := by
  unfold refuseLookup
  obtain ⟨same, failed⟩ := h.fail report
  apply Attempt.Pairs.modifyGet_bind
  apply Attempt.Pairs.modify_bind
  apply Attempt.Pairs.throw
  exact ⟨same exact_reports, failed.report Session.reporting_closeError⟩

include exact_keys exact_reports in
/-- Both find the same endpoint, or both give up. -/
theorem lookUp_pairs (technologies : TechnologySet) (h : s.Alike G k read t) :
    (lookUp slot technologies).Pairs allowed s (lookUp slot technologies) t (SameAlike G k read)
      (SameAlike G k read) := by
  unfold lookUp
  apply Attempt.Pairs.modify_bind
  have opened := h.report (Session.reporting_openReport (.lookingUpEndpoint technologies))
  apply Attempt.Pairs.get_bind
  rw [Registry.select_of_roll (opened.right.roll.trans opened.left.roll.symm)]
  split
  · exact refuseLookup_pairs exact_reports opened _
  · rename_i ids _
    refine Attempt.Pairs.bind (Attempt.Pairs.lift (Survey.available_pairs .exclusive _ opened)) ?_
    rintro cs s' cs' t' ⟨rfl, h'⟩
    -- the snapshots of the survey need not be kept in mind
    have known := h'.of_subset (List.subset_append_right _ _)
    refine Attempt.Pairs.bind
      (Attempt.Pairs.lift (tryTerminals_pairs exact_keys exact_reports cs' known)) ?_
    rintro found s'' found' t'' ⟨rfl, h''⟩
    cases found' with
    | some endpoint =>
      apply Attempt.Pairs.modify_bind
      exact Attempt.Pairs.pure ⟨rfl, h''.report Session.reporting_closeReport⟩
    | none => exact refuseLookup_pairs exact_reports h'' _

include exact_keys exact_reports in
/-- Both place a participant with the same key. -/
theorem place_pairs (index : Nat) (p : Participant) (h : s.Alike G k read t) :
    (place slot index p).Pairs allowed s (place slot index p) t (SameAlike G k read)
      (SameAlike G k read) := by
  cases p with
  | existing id =>
    unfold place
    refine Attempt.Pairs.bind (run_pairs exact_keys exact_reports
      (Exclusive.endpointJob_steady id id.text) h) ?_
    rintro key s' key' t' ⟨rfl, h'⟩
    apply Attempt.Pairs.get_bind
    exact Attempt.Pairs.pure ⟨terminalEndpoint_eq h' id key', h'⟩
  | lookup technologies => exact lookUp_pairs exact_keys exact_reports technologies h
  | external technologies count =>
    unfold place
    simp only
    -- the label depends on the place among the participants only
    generalize s!"external endpoint {index + 1}" = label
    obtain ⟨key, made⟩ := h.create (.made slot (.endpoint label none technologies count)) rfl
    rw [exact_keys, Nat.add_zero] at key
    apply Attempt.Pairs.modifyGet_bind
    rw [key]
    exact Attempt.Pairs.pure ⟨rfl, made⟩

include exact_keys exact_reports in
/-- By induction on the participants. -/
theorem placeAll_pairs (participants : List Participant) :
    ∀ (index : Nat) {s t : Session}, s.Alike G k read t →
      (placeAll slot index participants).Pairs allowed s (placeAll slot index participants) t
        (SameAlike G k read) (SameAlike G k read) := by
  induction participants with
  | nil => exact fun _ _ _ h => Attempt.Pairs.pure ⟨rfl, h⟩
  | cons p ps ih =>
    intro index s t h
    unfold placeAll
    refine Attempt.Pairs.bind (place_pairs exact_keys exact_reports index p h) ?_
    rintro e s' e' t' ⟨rfl, h'⟩
    refine Attempt.Pairs.bind (ih (index + 1) h') ?_
    rintro es s'' es' t'' ⟨rfl, h''⟩
    exact Attempt.Pairs.pure ⟨rfl, h''⟩

/-! ## Connections -/

/-- Connecting directly reads nothing but the endpoints. -/
theorem connectDirectly_pairs (es : List Endpoint) (h : s.Alike G k read t) :
    (connectDirectly es).Pairs allowed s (connectDirectly es) t (SameAlike G k read) := by
  unfold connectDirectly
  split
  · apply Action.Pairs.modify_bind
    have opened (report : Report) := h.report (Session.reporting_openReport report)
    split
    · apply Action.Pairs.modify_bind
      exact Action.Pairs.pure ⟨rfl, (opened _).report Session.reporting_closeReport⟩
    · apply Action.Pairs.modify_bind
      apply Action.Pairs.modify_bind
      apply Action.Pairs.pure
      exact ⟨rfl, ((opened _).report (Session.reporting_addError _)).report
        Session.reporting_closeError⟩
  · exact Action.Pairs.pure ⟨rfl, h⟩

include exact_keys exact_reports in
/-- By induction on the technologies that may be spoken in the room. -/
theorem tryBridges_pairs (participants : Nat) (sets : List TechnologySet) :
    ∀ (last : Option Failure) {s t : Session}, s.Alike G k read t →
      (tryBridges slot participants last sets).Pairs allowed s
        (tryBridges slot participants last sets) t
        (SameAlike G k read) := by
  induction sets with
  | nil => exact fun _ _ _ h => Action.Pairs.pure ⟨rfl, h⟩
  | cons technologies sets ih =>
    intro last s t h
    unfold tryBridges
    apply Action.Pairs.modify_bind
    have opened := h.report (Session.reporting_openReport (.bridgingWithRoom technologies))
    refine Action.Pairs.outcome_bind (run_pairs exact_keys exact_reports
      (RoomSpec.job_steady ⟨participants, technologies, none, []⟩) opened) ?_ ?_
    · rintro key s' key' t' ⟨rfl, h'⟩
      apply Action.Pairs.modify_bind
      apply Action.Pairs.get_bind
      have closed := h'.report Session.reporting_closeReport
      refine Action.Pairs.pure ⟨?_, closed⟩
      -- with equal keys the forests are equal, so the rooms have equal labels
      unfold bridgeLabel
      rw [reservations_eq exact_keys closed]
    · rintro e s' e' t' ⟨rfl, h'⟩
      apply Action.Pairs.modify_bind
      exact ih (some e') (h'.report Session.reporting_closeError)

include exact_keys exact_reports in
/-- Both bridge with the same room. Only counting the participants may end in a fault, and then it
does in both. -/
theorem bridge_pairs (es : List Endpoint)
    (overflow : ∀ fault, participantCount es = .error fault → allowed fault)
    (h : s.Alike G k read t) :
    (bridge slot es).Pairs allowed s (bridge slot es) t (SameAlike G k read)
      (SameAlike G k read) := by
  unfold bridge
  simp only
  apply Attempt.Pairs.get_bind
  have same : bridgeable t.registry es = bridgeable s.registry es := by
    unfold bridgeable
    simp only [Registry.select_of_roll (h.right.roll.trans h.left.roll.symm)]
  rw [same]
  split
  · exact refuse_pairs exact_reports h _
  · -- the count is the same on both sides, so both fail at it or none does
    cases counted : participantCount es with
    | error fault => exact Attempt.Pairs.ask_fault (overflow fault counted) rfl rfl
    | ok participants =>
      refine Attempt.Pairs.ask_bind rfl rfl ?_
      refine Attempt.Pairs.bind
        (Attempt.Pairs.lift (tryBridges_pairs exact_keys exact_reports participants _ none h)) ?_
      rintro r s' r' t' ⟨rfl, h'⟩
      split
      · exact Attempt.Pairs.pure ⟨rfl, h'⟩
      · exact Attempt.Pairs.throw ⟨rfl, h'⟩
      · exact refuse_pairs exact_reports h' _

include exact_keys exact_reports in
/-- Both make the same plan. -/
theorem connect_pairs (es : List Endpoint)
    (overflow : ∀ fault, participantCount es = .error fault → allowed fault)
    (h : s.Alike G k read t) :
    (connect slot es).Pairs allowed s (connect slot es) t (SameAlike G k read)
      (SameAlike G k read) := by
  unfold connect
  refine Attempt.Pairs.bind (Attempt.Pairs.lift (connectDirectly_pairs es h)) ?_
  rintro found s' found' t' ⟨rfl, h'⟩
  split
  · exact Attempt.Pairs.pure ⟨rfl, h'⟩
  · refine Attempt.Pairs.bind (bridge_pairs exact_keys exact_reports es overflow h') ?_
    rintro b s'' b' t'' ⟨rfl, h''⟩
    apply Attempt.Pairs.get_bind
    simp only
    refine Attempt.Pairs.pure ⟨?_, h''⟩
    -- the room is read from the forest, so its technologies are the same
    unfold roomTechnologies
    rw [reservations_eq exact_keys h'']

include exact_reports in
/-- Verifying a plan reads nothing else. -/
theorem verify_pairs (es : List Endpoint) (b : Option Bridge) (cs : List Connection)
    (h : s.Alike G k read t) :
    (verify es b cs).Pairs allowed s (verify es b cs) t (SameAlike G k read)
      (SameAlike G k read) := by
  unfold verify
  simp only
  split
  · exact Attempt.Pairs.pure ⟨rfl, h⟩
  · exact refuse_pairs exact_reports h _

/-! ## The node of the compartment -/

include exact_keys in
/-- The trees of all parts are without a parent until they are attached. -/
theorem attachAll_pairs {base : Session} (start : base.reservations.InProgress) {parent : Nat}
    (keys : List Nat) :
    ∀ {s t : Session} {ps : List Nat} {made : List (List Nat)},
      base.Builds s ((parent :: ps) :: made) →
        made.map List.head? = keys.map some → s.Alike G k read t →
      (attachAll parent keys).Pairs allowed s (attachAll parent keys) t
        fun _ s' _ t' => s'.Alike G k read t' := by
  induction keys with
  | nil => exact fun _ _ h => Action.Pairs.pure h
  | cons key keys ih =>
    intro s t ps made builds heads h
    rw [List.map_cons, List.map_eq_cons_iff] at heads
    obtain ⟨tree, rest, rfl, head, heads⟩ := heads
    obtain ⟨cs, rfl⟩ := List.head?_eq_some_iff.1 head
    unfold attachAll
    -- the left attachment succeeds for the trees that were built, and the right one follows it
    obtain ⟨s', left⟩ := builds.exists_attach start
    obtain ⟨t', right, h'⟩ := h.attach left
    rw [exact_keys, Nat.add_zero, Nat.add_zero] at right
    refine Action.Pairs.change_bind left right ?_
    exact ih (builds.attach left) heads h'

include exact_keys exact_reports in
/-- Both allocate the compartment with the same keys, or fail in the same way. -/
theorem allocate_pairs (participants : List Participant)
    (overflow : maxCount < endpointCount participants → allowed .countOverflow)
    (h : s.Alike G k read t) :
    (allocate participants slot).Pairs allowed s (allocate participants slot) t (SameAlike G k read)
      (SameAlike G k read) := by
  unfold allocate
  simp only
  split
  · exact refuse_pairs exact_reports h _
  · -- what the left run has built by itself says that its trees can be attached
    refine Attempt.Pairs.bind
      ((placeAll_pairs exact_keys exact_reports participants 0 h).with_left_ok (Attempt.Delivers.and
        (placeAll_ensures participants 0 s) (placeAll_counts participants 0 s))) ?_
    rintro es s' es' t' ⟨⟨trees, counts⟩, rfl, h'⟩
    have only_overflow : ∀ fault, participantCount es' = .error fault → allowed fault := by
      intro fault counted
      obtain ⟨rfl, above⟩ := participantCount_eq_error counted
      exact overflow (endpointCount_eq counts ▸ above)
    refine Attempt.Pairs.bind
      ((connect_pairs exact_keys exact_reports es' only_overflow h').with_left_ok
        (connect_ensures slot es' s')) ?_
    rintro ⟨connections, b⟩ s'' _ t'' ⟨more, rfl, h''⟩
    obtain ⟨all, builds, heads⟩ := trees.append more
    refine Attempt.Pairs.bind ((verify_pairs exact_reports es' b connections h'').with_left_ok
      (verify_quiet es' b connections s'')) ?_
    rintro _ _ _ u ⟨rfl, -, h''⟩
    obtain ⟨key, made⟩ := h''.create (.made slot (.compartment connections)) rfl
    rw [exact_keys, Nat.add_zero] at key
    apply Attempt.Pairs.modifyGet_bind
    rw [key]
    have whole := (builds.create (.made slot (.compartment connections))
      fun _ _ _ claim => nomatch claim).reorder List.perm_append_comm
    refine Attempt.Pairs.bind
      (Attempt.Pairs.lift (attachAll_pairs exact_keys h.progress _ whole heads made)) ?_
    intro _ v _ w linked
    exact Attempt.Pairs.pure ⟨rfl, linked⟩

include exact_keys exact_reports in
/-- The job for a compartment is steady, when a fault of the count is allowed for. -/
theorem job_steady (participants : List Participant)
    (overflow : maxCount < endpointCount participants → allowed .countOverflow) :
    (job participants slot).Steady allowed G k := by
  refine ⟨rfl, rfl, fun {read s t} h => ?_⟩
  refine (allocate_pairs exact_keys exact_reports participants overflow h).mono ?_ ?_
  · rintro key s' key' t' ⟨same, h'⟩
    refine ⟨?_, h'⟩
    rw [exact_keys]
    exact same
  · rintro e s' e' t' ⟨same, h'⟩
    exact ⟨fun _ => same, h'⟩

end Agreeing

end Conference.Compartment
