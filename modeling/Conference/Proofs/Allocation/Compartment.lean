import Conference.Allocation.Compartment
import Conference.Proofs.Allocation.Exclusive
import Conference.Proofs.Allocation.Room

/-!
# Compartments are orderly

Each participant that is placed makes a tree, and so does the room that connects them. In the end
all of these trees become children of the node of the compartment, none is left over.
-/

namespace Conference.Session

/-- Trees with the given roots have been built, in this order. -/
def BuildsTrees (s : Session) (roots : List Nat) (t : Session) : Prop :=
  ∃ made, s.Builds t made ∧ made.map List.head? = roots.map some

/-- Trees built one part after the other. -/
theorem BuildsTrees.append {s t u : Session} {roots roots' : List Nat} (h : s.BuildsTrees roots t)
    (h' : t.BuildsTrees roots' u) : s.BuildsTrees (roots ++ roots') u := by
  obtain ⟨made, builds, heads⟩ := h
  obtain ⟨made', builds', heads'⟩ := h'
  refine ⟨made ++ made', builds.trans builds', ?_⟩
  rw [List.map_append, List.map_append, heads, heads']

/-- What is left behind after some trees were built includes them. -/
theorem BuildsTrees.leaves {s t u : Session} {roots : List Nat} (h : s.BuildsTrees roots t)
    (h' : t.Leaves u) : s.Leaves u := by
  obtain ⟨made, builds, -⟩ := h
  exact h'.after builds

/-- A node that may be placed is one tree or none. -/
theorem Places.buildsTrees {s t : Session} {key : Option Nat} (h : s.Places key t) :
    s.BuildsTrees key.toList t := by
  cases key with
  | none => exact ⟨[], h, rfl⟩
  | some key =>
    obtain ⟨keys, builds⟩ := h
    exact ⟨[key :: keys], builds, rfl⟩

end Conference.Session

namespace Conference.Compartment

variable {slot : Slot}

/-! ## Participants -/

/-- By induction on the candidates. One that fails has left nothing, so the next starts where it
did. -/
theorem tryTerminals_places (cs : List Candidate) :
    ∀ s : Session, (tryTerminals slot cs).Ensures s fun e t => s.Places (e.map (·.key)) t := by
  induction cs with
  | nil =>
    intro s
    exact Action.Ensures.pure (.start s)
  | cons c cs ih =>
    intro s
    unfold tryTerminals
    have orderly := Exclusive.orderly_endpointJob c.resource c.resource.text slot
    refine Action.Ensures.bind (Action.Ensures.outcome (Job.run_ensures orderly s)) ?_
    intro r t done
    cases r with
    | ok key =>
      apply Action.Ensures.get_bind
      exact Action.Ensures.pure done
    -- the failed job has left nothing behind, so the next one starts from the same trees
    | error failure => exact (ih t).mono fun _ _ h => h.after done

/-- Giving up a lookup only reports. -/
theorem refuseLookup_ensures {base s : Session} (quiet : base.Quiet s) (report : Report)
    {ok : Endpoint → Session → Prop} :
    (refuseLookup report).Ensures s ok fun _ t => base.Quiet t := by
  unfold refuseLookup
  apply Attempt.Ensures.modifyGet_bind
  apply Attempt.Ensures.modify_bind
  apply Attempt.Ensures.throw
  exact (quiet.trans (s.quiet_fail report)).trans (Session.quiet_closeError _)

/-- Looking for an endpoint builds the tree of the endpoint that is found. -/
theorem lookUp_ensures (slot : Slot) (technologies : TechnologySet) (s : Session) :
    (lookUp slot technologies).Ensures s (fun e t => ∃ keys, s.Builds t [e.key :: keys])
      fun _ t => s.Leaves t := by
  unfold lookUp
  apply Attempt.Ensures.modify_bind
  have opened := s.quiet_openReport (.lookingUpEndpoint technologies)
  apply Attempt.Ensures.get_bind
  split
  · refine (refuseLookup_ensures opened _).mono (fun _ _ h => h) ?_
    exact fun _ _ quiet => ⟨[], .of_quiet quiet⟩
  · refine Attempt.Ensures.bind
      (Attempt.Ensures.lift (Survey.available_ensures slot .exclusive _ _)) ?_
    rintro cs t ⟨quiet, -⟩
    refine Attempt.Ensures.bind (Attempt.Ensures.lift (tryTerminals_places cs t)) ?_
    intro found u placed
    have whole := placed.after (.of_quiet (opened.trans quiet))
    -- either the endpoint stands in one tree, or nothing has been placed
    cases found with
    | some endpoint =>
      obtain ⟨keys, builds⟩ := whole
      apply Attempt.Ensures.modify_bind
      exact Attempt.Ensures.pure ⟨keys, builds.quiet u.quiet_closeReport⟩
    | none =>
      refine (refuseLookup_ensures (.refl u) _).mono (fun _ _ h => h) ?_
      exact fun _ _ refused => ⟨[], Session.Builds.quiet whole refused⟩

/-- Each participant that is placed makes one tree. -/
theorem place_ensures (slot : Slot) (index : Nat) (p : Participant) (s : Session) :
    (place slot index p).Ensures s (fun e t => ∃ keys, s.Builds t [e.key :: keys])
      fun _ t => s.Leaves t := by
  cases p with
  | existing id =>
    unfold place
    have orderly := Exclusive.orderly_endpointJob id id.text slot
    have placed := (Job.run_ensures orderly s).mono (fun _ _ h => h) fun _ _ h =>
      (⟨[], h⟩ : ∃ made, s.Builds _ made)
    refine Attempt.Ensures.bind placed ?_
    intro key t built
    apply Attempt.Ensures.get_bind
    exact Attempt.Ensures.pure built
  | lookup technologies => exact lookUp_ensures slot technologies s
  | external technologies count =>
    unfold place
    apply Attempt.Ensures.modifyGet_bind
    refine Attempt.Ensures.pure ⟨[], ?_⟩
    -- an external endpoint claims nothing, hence no record is applied
    exact .create_of_quiet (.refl s) _ fun _ _ _ claim => nomatch claim

/-- Each participant becomes one tree, in their order. -/
theorem placeAll_ensures (participants : List Participant) :
    ∀ (index : Nat) (s : Session),
      (placeAll slot index participants).Ensures s (fun es t => s.BuildsTrees (es.map (·.key)) t)
        fun _ t => s.Leaves t := by
  induction participants with
  | nil =>
    intro index s
    exact Attempt.Ensures.pure ⟨[], .start s, rfl⟩
  | cons p ps ih =>
    intro index s
    unfold placeAll
    refine Attempt.Ensures.bind (place_ensures slot index p s) ?_
    rintro e t ⟨keys, builds⟩
    -- the tree of the first participant stays in front of those of the others
    have first : s.BuildsTrees [e.key] t := ⟨[e.key :: keys], builds, rfl⟩
    have others := (ih (index + 1) t).mono (fun _ _ h => first.append h)
      fun _ _ h => first.leaves h
    refine Attempt.Ensures.bind others ?_
    intro es u built
    exact Attempt.Ensures.pure built

/-! ## Counts -/

/-- An endpoint that is looked up counts one. -/
theorem tryTerminals_single (cs : List Candidate) :
    ∀ s : Session, (tryTerminals slot cs).Ensures s fun found _ => ∀ e ∈ found, e.count = 1 := by
  induction cs with
  | nil =>
    intro s
    exact Action.Ensures.pure fun _ never => nomatch never
  | cons c cs ih =>
    intro s
    unfold tryTerminals
    have orderly := Exclusive.orderly_endpointJob c.resource c.resource.text slot
    refine Action.Ensures.bind (Action.Ensures.outcome (Job.run_ensures orderly s)) ?_
    intro r t _
    cases r with
    | ok key =>
      apply Action.Ensures.get_bind
      -- the endpoint of a terminal is made with a count of one
      apply Action.Ensures.pure
      intro e mem
      cases mem
      rfl
    | error _ => exact ih t

/-- An endpoint stands for as many as the participant that it is for. -/
theorem place_count (slot : Slot) (index : Nat) (p : Participant) (s : Session) :
    (place slot index p).Delivers s fun e _ => e.count = p.count := by
  cases p with
  | existing id =>
    unfold place
    have orderly := Exclusive.orderly_endpointJob id id.text slot
    refine Attempt.Ensures.bind (Attempt.Delivers.of_ensures (Job.run_ensures orderly s)) ?_
    intro key t _
    apply Attempt.Ensures.get_bind
    exact Attempt.Ensures.pure rfl
  | lookup technologies =>
    unfold place lookUp
    apply Attempt.Ensures.modify_bind
    apply Attempt.Ensures.get_bind
    -- a lookup that is given up delivers no endpoint, so there is nothing to count
    have refused (report : Report) (t : Session) :
        (refuseLookup report).Delivers t fun (e : Endpoint) _ => e.count = 1 :=
      Attempt.Delivers.of_ensures (refuseLookup_ensures (.refl t) report)
    split
    · exact refused _ _
    · refine Attempt.Ensures.bind
        (Attempt.Ensures.lift (Survey.available_ensures slot .exclusive _ _)) ?_
      intro cs t _
      refine Attempt.Ensures.bind (Attempt.Ensures.lift (tryTerminals_single cs t)) ?_
      intro found u single
      cases found with
      | some e =>
        apply Attempt.Ensures.modify_bind
        exact Attempt.Ensures.pure (single e rfl)
      | none => exact refused _ _
  | external technologies count =>
    unfold place
    apply Attempt.Ensures.modifyGet_bind
    exact Attempt.Ensures.pure rfl

/-- The endpoints count as many as the participants. -/
theorem placeAll_counts (participants : List Participant) :
    ∀ (index : Nat) (s : Session), (placeAll slot index participants).Delivers s fun es _ =>
      es.map (·.count) = participants.map (·.count) := by
  induction participants with
  | nil =>
    intro index s
    exact Attempt.Ensures.pure rfl
  | cons p ps ih =>
    intro index s
    unfold placeAll
    refine Attempt.Ensures.bind (place_count slot index p s) ?_
    intro e t first
    refine Attempt.Ensures.bind (ih (index + 1) t) ?_
    intro es u others
    apply Attempt.Ensures.pure
    rw [List.map_cons, List.map_cons, first, others]

/-- The endpoints stand for as many as the participants. -/
theorem endpointCount_eq {es : List Endpoint} {participants : List Participant}
    (counts : es.map (·.count) = participants.map (·.count)) :
    es.foldr (fun e n => e.count + n) 0 = endpointCount participants := by
  have left : (es.map (·.count)).foldr (· + ·) 0 = es.foldr (fun e n => e.count + n) 0 :=
    List.foldr_map
  have right : (participants.map (·.count)).foldr (· + ·) 0 = endpointCount participants :=
    List.foldr_map
  rw [← right, ← counts, left]

/-- Counting participants fails only if they are too many for the type of the count. -/
theorem participantCount_eq_error {es : List Endpoint} {fault : Fault}
    (counted : participantCount es = .error fault) :
    fault = .countOverflow ∧ maxCount < es.foldr (fun e n => e.count + n) 0 := by
  unfold participantCount at counted
  simp only at counted
  split at counted
  · cases counted
  · rename_i above
    exact ⟨(Except.error.inj counted).symm, Nat.lt_of_not_le above⟩

/-! ## Connections -/

/-- Connecting directly reports and builds nothing. -/
theorem connectDirectly_quiet (es : List Endpoint) (s : Session) :
    (connectDirectly es).Ensures s fun _ t => s.Quiet t := by
  unfold connectDirectly
  split
  · apply Action.Ensures.modify_bind
    have opened := s.quiet_openReport
    split
    · apply Action.Ensures.modify_bind
      apply Action.Ensures.pure
      exact (opened _).trans (Session.quiet_closeReport _)
    · apply Action.Ensures.modify_bind
      apply Action.Ensures.modify_bind
      apply Action.Ensures.pure
      exact ((opened _).trans (Session.quiet_addError _ _)).trans (Session.quiet_closeError _)
  · exact Action.Ensures.pure (.refl s)

/-- A set of technologies that fails leaves nothing for the next one to run into. -/
theorem tryBridges_places (participants : Nat) (sets : List TechnologySet) :
    ∀ (last : Option Failure) (s : Session),
      (tryBridges slot participants last sets).Ensures s fun r t =>
        s.Places (r.toOption.map (·.key)) t := by
  induction sets with
  | nil =>
    intro last s
    exact Action.Ensures.pure (.start s)
  | cons technologies sets ih =>
    intro last s
    unfold tryBridges
    apply Action.Ensures.modify_bind
    have opened := Session.Builds.of_quiet (s.quiet_openReport (.bridgingWithRoom technologies))
    have orderly := RoomSpec.orderly_job ⟨participants, technologies, none, []⟩ slot
    refine Action.Ensures.bind (Action.Ensures.outcome (Job.run_ensures orderly _)) ?_
    intro r t done
    cases r with
    | ok key =>
      obtain ⟨keys, builds⟩ := done
      apply Action.Ensures.modify_bind
      apply Action.Ensures.get_bind
      apply Action.Ensures.pure
      exact ⟨keys, (opened.trans builds).quiet t.quiet_closeReport⟩
    | error failure =>
      apply Action.Ensures.modify_bind
      -- a failed attempt has taken its own nodes back, and only its report is closed
      have nothing : s.Builds t.closeError [] := (opened.trans done).quiet t.quiet_closeError
      exact (ih _ _).mono fun _ _ h => h.after nothing

/-- Bridging builds the tree of a room. -/
theorem bridge_ensures (slot : Slot) (es : List Endpoint) (s : Session) :
    (bridge slot es).Ensures s (fun b t => s.BuildsTrees [b.key] t)
      fun _ t => s.Leaves t := by
  unfold bridge
  simp only
  apply Attempt.Ensures.get_bind
  split
  · refine Attempt.Ensures.refuse ⟨[], ?_⟩
    exact .of_quiet (s.quiet_fail _)
  · apply Attempt.Ensures.ask_bind
    intro participants _
    refine Attempt.Ensures.bind (Attempt.Ensures.lift (tryBridges_places participants _ none s)) ?_
    intro r t placed
    split
    · exact Attempt.Ensures.pure placed.buildsTrees
    · -- a room has failed: its own failure is handed over, and its tree is gone
      exact Attempt.Ensures.throw ⟨[], placed⟩
    · refine Attempt.Ensures.refuse ⟨[], ?_⟩
      exact Session.Builds.quiet placed (t.quiet_fail _)

/-- Connecting builds the tree of a room if one is needed, and no tree otherwise. -/
theorem connect_ensures (slot : Slot) (es : List Endpoint) (s : Session) :
    (connect slot es).Ensures s (fun c t => s.BuildsTrees (c.2.toList.map (·.key)) t)
      fun _ t => s.Leaves t := by
  unfold connect
  refine Attempt.Ensures.bind (Attempt.Ensures.lift (connectDirectly_quiet es s)) ?_
  intro found t quiet
  have before : s.BuildsTrees [] t := ⟨[], .of_quiet quiet, rfl⟩
  split
  · exact Attempt.Ensures.pure before
  · have bridged := (bridge_ensures slot es t).mono (fun _ _ h => before.append h)
      fun _ _ h => before.leaves h
    refine Attempt.Ensures.bind bridged ?_
    intro b u built
    apply Attempt.Ensures.get_bind
    exact Attempt.Ensures.pure built

/-- Verifying a plan changes nothing, apart from the report of a refusal. -/
theorem verify_quiet (es : List Endpoint) (b : Option Bridge) (cs : List Connection) (s : Session) :
    (verify es b cs).Ensures s (fun _ t => t = s) fun _ t => s.Quiet t := by
  unfold verify
  simp only
  split
  · exact Attempt.Ensures.pure rfl
  · exact Attempt.Ensures.refuse (s.quiet_fail _)

/-! ## The node of the compartment -/

/-- Attaching all trees leaves one. -/
theorem attachAll_ensures {base : Session} {parent : Nat} (keys : List Nat) :
    ∀ {s : Session} {ps : List Nat} {made : List (List Nat)},
      base.Builds s ((parent :: ps) :: made) → made.map List.head? = keys.map some →
      (attachAll parent keys).Ensures s fun _ t => ∃ ps', base.Builds t [parent :: ps'] := by
  induction keys with
  | nil =>
    intro s ps made builds heads
    rw [List.map_nil, List.map_eq_nil_iff] at heads
    rw [heads] at builds
    exact Action.Ensures.pure ⟨ps, builds⟩
  | cons key keys ih =>
    intro s ps made builds heads
    rw [List.map_cons, List.map_eq_cons_iff] at heads
    -- the key to be attached is the root of the next tree
    obtain ⟨tree, rest, rfl, head, heads⟩ := heads
    obtain ⟨cs, rfl⟩ := List.head?_eq_some_iff.1 head
    unfold attachAll
    apply Action.Ensures.change_bind
    intro t attached
    exact ih (builds.attach attached) heads

/-- A compartment is one tree: its node over the trees of the participants and of the room. -/
theorem allocate_buildsTree (participants : List Participant) (slot : Slot) (s : Session) :
    (allocate participants slot).BuildsTree s := by
  unfold allocate
  simp only
  split
  · refine Attempt.Ensures.refuse ⟨[], ?_⟩
    exact .of_quiet (s.quiet_fail _)
  · refine Attempt.Ensures.bind (placeAll_ensures participants 0 s) ?_
    intro es t placed
    have connected := (connect_ensures slot es t).mono (fun _ _ h => placed.append h)
      fun _ _ h => placed.leaves h
    refine Attempt.Ensures.bind connected ?_
    rintro ⟨connections, b⟩ u ⟨all, builds, heads⟩
    -- `all` holds the trees of the participants and then that of the room, if there is one
    have verified := (verify_quiet es b connections u).mono (fun _ _ h => h) fun _ _ quiet =>
      (⟨_, builds.quiet quiet⟩ : ∃ made, s.Builds _ made)
    refine Attempt.Ensures.bind verified ?_
    rintro _ _ rfl
    apply Attempt.Ensures.modifyGet_bind
    -- the node of the compartment comes last, and has to stand first to adopt the others
    have whole := (builds.create (.made slot (.compartment connections))
      fun _ _ _ claim => nomatch claim).reorder List.perm_append_comm
    refine Attempt.Ensures.bind (Attempt.Ensures.lift (attachAll_ensures _ whole heads)) ?_
    intro _ v built
    exact Attempt.Ensures.pure built

theorem orderly_job (participants : List Participant) (slot : Slot) :
    (job participants slot).Orderly :=
  fun s => allocate_buildsTree participants slot s

end Conference.Compartment
