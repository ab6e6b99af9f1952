import Conference.Proofs.Allocation.Recording
import Conference.Proofs.Parallel.Recording
import Conference.Proofs.Parallel.Room
import Conference.Proofs.Search.Agreement

/-!
# Rooms, aliases and recordings are searches

Rooms, aliases and enabled recordings survey the resources and try the candidates. A disabled
recording goes on the first resource that may be used, so there the resources themselves are the
options.
-/

namespace Conference

open Session (Blank FoundAlike)

variable {slot : Slot} {G : Ground} {l : Ledger} {base : Session}

/-- A search among the candidates of a survey is sound if trying a candidate is. -/
theorem Search.Sound.of_survey {search : Search Candidate} {dimension : Dimension}
    (start : base.Blank G l 0 [])
    (options : search.options = fun given ids => Survey.candidates given slot dimension ids)
    (turns : InTurn search.tries)
    (refuses : ∀ ids s, ∃ e s', search.refuse ids s = .ok (.error e, s'))
    (places : ∀ {s : Session} {c : Candidate} (t : Session), s.Quiet t →
      c.Accurate s slot dimension → (search.tries [c]).Ensures t s.Places)
    (settled : ∀ {k : Nat} {read : List ResourceId} {s t : Session} {c : Candidate},
      (∃ r, s.resource? c.resource = some r ∧ c.maximum = (r.capacity? dimension).getD 0) →
        c.resource ∈ read → s.Alike G (.claims slot k False) read t → (search.tries [c]).Pairs
          (fun _ => False) s (search.tries [c]) t (FoundAlike G (.claims slot k False) read)) :
    search.Sound slot G l (·.resource) (fun c => [c.resource]) (Survey.spare? base slot dimension)
      Candidate.rank where
  arranged := Candidate.rank_perm
  named := Survey.resource_of_spare?
  turns := turns
  refuses := refuses
  free := by
    intro ids s h
    rw [options]
    obtain ⟨cs, s', run, rfl, blank, quiet, accurate⟩ :=
      Survey.candidates_blank slot dimension start h none ids
    refine ⟨s', _, run, blank, fun c mem => ⟨?_, ?_⟩⟩
    · refine List.cons_subset.2 ⟨?_, List.nil_subset _⟩
      exact List.mem_append_left _ (List.mem_map_of_mem mem)
    · -- the survey is quiet, so what is undone is all that has happened since the start
      intro found u tried nothing
      have placed := places s' quiet (accurate c mem) found u tried
      rw [nothing] at placed
      exact h.toIdle.of_places placed
  fixed := by
    intro r s h
    rw [options]
    obtain ⟨cs, s', run, same, blank, -, -⟩ :=
      Survey.candidates_blank slot dimension start h (some r) [r]
    -- a single candidate is not ranked
    have single : cs = (Survey.spare? base slot dimension r).toList := by
      rw [same]
      cases found : Survey.spare? base slot dimension r <;> simp [Survey.order, found]
    rw [← single]
    refine ⟨s', run, fun c made => blank.of_subset ?_⟩
    rw [Survey.resource_of_spare? made]
    exact List.subset_append_right _ _
  settled := by
    intro r c made k read s t among alike
    refine settled ?_ (among List.mem_cons_self) alike
    rw [start.stands.resource?_eq alike.left]
    exact (Survey.accurate_of_spare? made).maximum
  checked := by
    intro r c key read s s' made stands _
    rw [start.stands.checkResource_eq stands]
    exact Survey.checked_of_spare? made

/-! ## Rooms -/

namespace RoomSpec

variable (spec : RoomSpec)

def search (slot : Slot) : Search Candidate where
  usable := spec.isUsable
  capability := spec.capability
  options := fun given ids => Survey.candidates given slot .roomLicenses ids
  tries := spec.tryAll slot
  refuse := fun _ => Attempt.refuse (.noAvailableResource spec.capability)

/-- The work is the search. The tried resource is not read while candidates are tried. -/
theorem allocate_eq_work (given : Option ResourceId) :
    ({ spec with resource := given }).allocate slot = (spec.search slot).work slot given := by
  have same (cs : List Candidate) : ({ spec with resource := given }).tryAll slot cs
      = spec.tryAll slot cs := by
    induction cs with
    | nil => rfl
    | cons c cs ih => rw [tryAll, tryAll, ih]; rfl
  unfold allocate Search.work
  simp only [same]
  rfl

/-- Candidates are tried in turn: the rest comes only after one that is not taken. -/
theorem tryAll_inTurn : InTurn (spec.tryAll slot) where
  nil := rfl
  cons := by
    intro c cs
    simp only [tryAll, bind_assoc]
    congr 1
    funext found
    cases found <;> simp

/-- A room is searched for as a search has to be: what is not placed leaves nothing, and alike
sessions try a candidate alike. -/
theorem search_sound (start : base.Blank G l 0 []) :
    (spec.search slot).Sound slot G l (·.resource) (fun c => [c.resource])
      (Survey.spare? base slot .roomLicenses) Candidate.rank := by
  refine .of_survey start rfl spec.tryAll_inTurn (fun _ _ => ⟨_, _, rfl⟩) ?_ ?_
  · intro s c t quiet accurate
    -- the list with the one candidate is tried like any other
    have tried : (spec.tryAll slot [c]).Ensures t t.Places := by
      refine tryAll_places [c] t fun d mem => ?_
      rw [List.mem_singleton.1 mem, quiet.resource?]
      exact accurate.maximum
    exact tried.mono fun _ _ placed => placed.after (.of_quiet quiet)
  · intro k read s t c maximum among alike
    refine tryAll_pairs [c] (fun d mem => ?_) (fun d mem => ?_) alike
    · rw [List.mem_singleton.1 mem]
      exact maximum
    · rw [List.mem_singleton.1 mem]
      exact among

/-- A free search for a room agrees with the searches among single rooms, in the order of the
ranking. -/
theorem agrees (start : base.Blank G l 0 [])
    (distinct : (base.registry.resources.map (·.id)).Nodup) :
    Attempt.Agrees slot G l (Survey.ranked base slot .roomLicenses spec.isUsable)
      (({ spec with resource := none }).allocate slot)
      fun r => ({ spec with resource := some r }).allocate slot := by
  simp only [allocate_eq_work]
  exact (spec.search_sound start).agrees start distinct

end RoomSpec

/-! ## Aliases -/

namespace AliasSpec

variable (spec : AliasSpec)

def search (target : Option ResourceId) (slot : Slot) : Search Candidate where
  usable := spec.isUsable target
  capability := spec.capability
  options := fun given ids => Survey.candidates given slot .values ids
  tries := spec.tryAll slot
  refuse := fun ids => do Attempt.refuse (spec.reason (← get).registry ids)

/-- The work is the search, as with rooms. -/
theorem allocate_eq_work (target given : Option ResourceId) :
    ({ spec with resource := given }).allocate target slot
      = (spec.search target slot).work slot given := by
  have same (cs : List Candidate) : ({ spec with resource := given }).tryAll slot cs
      = spec.tryAll slot cs := by
    induction cs with
    | nil => rfl
    | cons c cs ih => rw [tryAll, tryAll, ih]; rfl
  unfold allocate Search.work
  simp only [same]
  rfl

/-- A candidate that is in use is passed over, any other one is tried in its own scope. -/
theorem tryAll_inTurn : InTurn (spec.tryAll slot) where
  nil := rfl
  cons := by
    intro c cs
    simp only [tryAll, bind_assoc]
    congr 1
    funext s
    split
    · simp
    · simp only [bind_assoc]
      congr 1
      funext _
      congr 1
      funext picked
      cases picked <;> simp

/-- An alias is searched for in the same way. -/
theorem search_sound (target : Option ResourceId) (start : base.Blank G l 0 []) :
    (spec.search target slot).Sound slot G l (·.resource) (fun c => [c.resource])
      (Survey.spare? base slot .values) Candidate.rank := by
  refine .of_survey start rfl spec.tryAll_inTurn (fun _ _ => ⟨_, _, rfl⟩) ?_ ?_
  · intro s c t quiet accurate
    refine tryAll_places [c] t quiet fun d mem => ?_
    rw [List.mem_singleton.1 mem]
    exact accurate
  · intro k read s t c _ among alike
    refine tryAll_pairs spec [c] (fun d mem => ?_) alike
    rw [List.mem_singleton.1 mem]
    exact among

/-- A free search for an alias agrees with the searches at single providers. -/
theorem agrees (target : Option ResourceId) (start : base.Blank G l 0 [])
    (distinct : (base.registry.resources.map (·.id)).Nodup) :
    Attempt.Agrees slot G l (Survey.ranked base slot .values (spec.isUsable target))
      (({ spec with resource := none }).allocate target slot)
      fun r => ({ spec with resource := some r }).allocate target slot := by
  simp only [allocate_eq_work]
  exact (spec.search_sound target start).agrees start distinct

end AliasSpec

/-! ## Recordings -/

namespace RecordingSpec

variable (spec : RecordingSpec)

def search (slot : Slot) : Search Candidate where
  usable := spec.isUsable
  capability := spec.capability
  options := fun given ids => Survey.candidates given slot .recordingLicenses ids
  tries := spec.tryAll slot
  refuse := fun _ => Attempt.refuse (.noAvailableResource spec.capability)

/-- The search for a service that takes no licenses. -/
def unlicensedSearch (slot : Slot) : Search ResourceId where
  usable := spec.isUsable
  capability := spec.capability
  options := fun _ ids => pure ids
  tries := spec.tryUnlicensed slot
  refuse := fun _ => Attempt.refuse (.noAvailableResource spec.capability)

variable {spec}

/-- With a recording, a candidate with enough licenses is looked for. -/
theorem place_of_enabled (enabled : spec.enabled) (given : Option ResourceId)
    (ids : List ResourceId) :
    ({ spec with resource := given }).place slot ids
      = Survey.candidates given slot .recordingLicenses ids >>= spec.tryAll slot := by
  have same (cs : List Candidate) : ({ spec with resource := given }).tryAll slot cs
      = spec.tryAll slot cs := by
    induction cs with
    | nil => rfl
    | cons c cs ih => rw [tryAll, tryAll, ih]; rfl
  unfold place
  rw [if_pos enabled]
  congr 1
  funext cs
  exact same cs

/-- Without one, the first resource that passes the check is taken. -/
theorem place_of_disabled (disabled : ¬ spec.enabled) (given : Option ResourceId)
    (ids : List ResourceId) :
    ({ spec with resource := given }).place slot ids = spec.tryUnlicensed slot ids := by
  unfold place
  rw [if_neg disabled]
  induction ids with
  | nil => rfl
  | cons id ids ih => rw [tryUnlicensed, tryUnlicensed, ih]; rfl

/-- The work with a recording is a search among candidates. -/
theorem allocate_eq_work (within : spec.executable.slot.contains slot) (enabled : spec.enabled)
    (given : Option ResourceId) :
    ({ spec with resource := given }).allocate slot = (spec.search slot).work slot given := by
  unfold allocate Search.work
  rw [if_pos within]
  congr 1
  funext ids
  rw [place_of_enabled enabled, liftM_bind, bind_assoc]
  rfl

/-- The work without one is a search among the resources themselves. -/
theorem allocate_eq_unlicensedWork (within : spec.executable.slot.contains slot)
    (disabled : ¬ spec.enabled) (given : Option ResourceId) :
    ({ spec with resource := given }).allocate slot
      = (spec.unlicensedSearch slot).work slot given := by
  unfold allocate Search.work
  rw [if_pos within]
  congr 1
  funext ids
  have resources : (spec.unlicensedSearch slot).options given ids = pure ids := rfl
  rw [place_of_disabled disabled, resources, liftM_pure, pure_bind]
  rfl

variable (spec)

/-- Candidates without enough licenses are reported and passed over. -/
theorem tryAll_inTurn : InTurn (spec.tryAll slot) where
  nil := rfl
  cons := by
    intro c cs
    simp only [tryAll]
    split
    · simp
    · simp

/-- Resources that do not pass the check are reported and passed over. -/
theorem tryUnlicensed_inTurn : InTurn (spec.tryUnlicensed slot) where
  nil := rfl
  cons := by
    intro id ids
    simp only [tryUnlicensed, bind_assoc]
    congr 1
    funext checked
    cases checked <;> simp

/-- A recording is searched for as a search has to be. -/
theorem search_sound (start : base.Blank G l 0 []) :
    (spec.search slot).Sound slot G l (·.resource) (fun c => [c.resource])
      (Survey.spare? base slot .recordingLicenses) Candidate.rank := by
  refine .of_survey start rfl spec.tryAll_inTurn (fun _ _ => ⟨_, _, rfl⟩) ?_ ?_
  · intro s c t quiet accurate
    refine tryAll_places [c] t quiet fun d mem => ?_
    rw [List.mem_singleton.1 mem]
    exact accurate
  · intro k read s t c _ _ alike
    exact tryAll_pairs spec [c] alike

/-- So is a resource without licenses, where the options are the resources in the order of
declaration. -/
theorem unlicensedSearch_sound (disabled : ¬ spec.enabled) :
    (spec.unlicensedSearch slot).Sound slot G l id (fun _ => []) some id where
  arranged := fun ids => .refl ids
  named := fun {r c} made => (Option.some.inj made).symm
  turns := spec.tryUnlicensed_inTurn
  refuses := fun _ _ => ⟨_, _, rfl⟩
  free := by
    intro ids s h
    refine ⟨s, [], ?_, h, fun r _ => ⟨List.nil_subset _, ?_⟩⟩
    · rw [List.filterMap_some]
      rfl
    · intro found u tried nothing
      have placed := tryUnlicensed_places disabled [r] s (.refl s) found u tried
      rw [nothing] at placed
      exact h.toIdle.of_places placed
  fixed := fun r s h => ⟨s, rfl, fun _ _ => h.of_subset (List.nil_subset _)⟩
  settled := fun {r c} _ {k read s t} _ alike => tryUnlicensed_pairs spec [c] alike
  checked := by
    intro r c key read s s' made stands tried
    cases made
    have run : spec.tryUnlicensed slot [r] s = .ok (some key, s') := tried
    have first : (modifyGet (·.checkResource r slot) : Action (Except Report Resource)) s
        = .ok ((s.checkResource r slot).1, (s.checkResource r slot).2) := rfl
    -- the only condition for a resource is the check
    unfold tryUnlicensed at run
    rw [Action.bind_of_ok first] at run
    cases checked : (s.checkResource r slot).1 with
    | ok resource => exact ⟨resource, rfl⟩
    | error reason =>
      rw [checked] at run
      cases run

/-- A free search for a meeting agrees with the searches at single resources. Which order they come
in depends on whether licenses are needed. -/
theorem agrees (start : base.Blank G l 0 [])
    (distinct : (base.registry.resources.map (·.id)).Nodup) :
    Attempt.Agrees slot G l
      (if spec.enabled then Survey.ranked base slot .recordingLicenses spec.isUsable
        else base.registry.select spec.isUsable)
      (({ spec with resource := none }).allocate slot)
      fun r => ({ spec with resource := some r }).allocate slot := by
  by_cases within : spec.executable.slot.contains slot
  · split
    · rename_i enabled
      simp only [allocate_eq_work within enabled]
      exact (spec.search_sound start).agrees start distinct
    · rename_i disabled
      simp only [allocate_eq_unlicensedWork within disabled]
      have sound : (spec.unlicensedSearch slot).Sound slot G l id (fun _ => []) some id :=
        spec.unlicensedSearch_sound disabled
      have agrees := sound.agrees start distinct
      rw [List.filterMap_some, id_eq, List.map_id] at agrees
      exact agrees
  · -- a slot outside that of the meeting is refused before any resource is looked at
    have refuses (given : Option ResourceId) (s : Session) :
        ∃ e s', ({ spec with resource := given }).allocate slot s = .ok (.error e, s') := by
      unfold allocate
      rw [if_neg within]
      exact ⟨_, _, rfl⟩
    refine ⟨fun r _ s _ => refuses (some r) s, fun s _ => Or.inl ?_⟩
    obtain ⟨e, s', refused⟩ := refuses none s
    exact ⟨e, s', refused, fun r _ t _ => refuses (some r) t⟩

end RecordingSpec

end Conference
