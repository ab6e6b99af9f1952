import Conference.Proofs.Allocation.Survey
import Conference.Proofs.Lookup
import Conference.Proofs.Search.First

/-!
# What a survey finds

Whether a resource becomes a candidate is settled by the ground and the ledger, and it is the same
one whether the resource is surveyed alone or among others. A survey of all eligible resources ranks
these candidates; one of a given resource finds that of the resource, if there is one.
-/

namespace Conference

open Session (Blank)

/-! ## Which resources come into question -/

section Eligible

variable {G : Ground} {l : Ledger} {s t : Session}

/-- A resource is selected if it is registered and passes the filter. -/
theorem Registry.mem_select {g : Registry} (distinct : (g.resources.map (·.id)).Nodup)
    {p : Resource → Bool} {id : ResourceId} : id ∈ g.select p ↔ ∃ r, g.get? id = some r ∧ p r := by
  have selected : g.select p = (g.resources.filter p).map (·.id) := rfl
  rw [selected, List.mem_map, get?_eq_find?]
  constructor
  · rintro ⟨r, mem, rfl⟩
    obtain ⟨registered, usable⟩ := List.mem_filter.1 mem
    exact ⟨r, find?_key_of_mem distinct registered, usable⟩
  · rintro ⟨r, found, usable⟩
    refine ⟨r, List.mem_filter.2 ⟨List.mem_of_find?_eq_some found, usable⟩, ?_⟩
    exact eq_of_beq (List.find?_some (p := fun r : Resource => r.id == id) found)

/-- A given resource comes into question if it passes the check and is usable. -/
theorem Survey.eligible_given (id : ResourceId) (slot : Slot) (usable : Resource → Bool)
    (capability : String) (s : Session) :
    ((∀ r, (s.checkResource id slot).1 = .ok r → usable r = false)
        ∧ ∃ e s', eligible (some id) slot usable capability s = .ok (.error e, s'))
      ∨ ∃ r, (s.checkResource id slot).1 = .ok r ∧ usable r
        ∧ eligible (some id) slot usable capability s
          = .ok (.ok [id], (s.checkResource id slot).2) := by
  -- the check is the only step that is made before the resource is looked at
  have run : (modifyGet (·.checkResource id slot) : Attempt (Except Report Resource)) s
      = .ok (.ok (s.checkResource id slot).1, (s.checkResource id slot).2) := rfl
  unfold eligible
  simp only
  rw [Attempt.bind_of_ok run]
  cases checked : (s.checkResource id slot).1 with
  | error reason => exact Or.inl ⟨(fun _ same => nomatch same), _, _, rfl⟩
  | ok r =>
    simp only
    cases fits : usable r with
    | true =>
      refine Or.inr ⟨r, rfl, fits, ?_⟩
      rw [if_pos rfl]
      rfl
    | false =>
      refine Or.inl ⟨?_, ?_⟩
      · rintro _ ⟨⟩
        exact fits
      · rw [if_neg Bool.false_ne_true]
        exact ⟨_, _, rfl⟩

/-- Where no resource is given, all usable ones come into question. -/
theorem Survey.eligible_free (slot : Slot) (usable : Resource → Bool) (capability : String)
    (s : Session) :
    (s.registry.select usable = []
      ∧ ∃ e s', eligible none slot usable capability s = .ok (.error e, s'))
      ∨ eligible none slot usable capability s = .ok (.ok (s.registry.select usable), s) := by
  have run : (get : Attempt Session) s = .ok (.ok s, s) := rfl
  unfold eligible
  simp only
  rw [Attempt.bind_of_ok run]
  cases s.registry.select usable with
  | nil => exact Or.inl ⟨rfl, _, _, rfl⟩
  | cons id ids => exact Or.inr rfl

end Eligible

namespace Survey

variable {slot : Slot} {dimension : Dimension} {G : Ground} {l : Ledger} {k : Nat}
  {read : List ResourceId} {base s : Session} {id : ResourceId}

/-- The candidate that an examination of a resource gives in a session. -/
def spare? (s : Session) (slot : Slot) (dimension : Dimension) (id : ResourceId) :
    Option Candidate :=
  match examine slot dimension id s with
  | .ok (found, _) => found
  | .error _ => none

variable (slot dimension) in
/-- The candidate made of a resource does not depend on what else has been examined. -/
theorem examine_blank (start : base.Blank G l 0 []) (h : s.Blank G l 0 []) (id : ResourceId) :
    ∃ s', examine slot dimension id s = .ok (spare? base slot dimension id, s')
      ∧ s'.Blank G l 0 [] := by
  have paired : (examine slot dimension id).Pairs (fun _ => False) base
      (examine slot dimension id) s _ :=
    examine_pairs dimension id (start.alike h)
  rcases paired with ⟨found, base', found', s', left, right, rfl, alike⟩ | ⟨_, never, -, -⟩
  · refine ⟨s', ?_, ?_⟩
    · unfold spare?
      rw [left]
      exact right
    · exact h.of_quiet (examine_ensures slot dimension id s _ _ right).1
        (alike.right.of_subset (List.nil_subset _))
  · exact never.elim

variable (slot dimension) in
/-- So examining them all makes the candidates one by one, by induction on the ids. -/
theorem examineAll_blank (start : base.Blank G l 0 []) (ids : List ResourceId) :
    ∀ {s : Session}, s.Blank G l 0 [] →
      ∃ s', examineAll slot dimension ids s = .ok (ids.filterMap (spare? base slot dimension), s')
        ∧ s'.Blank G l 0 [] := by
  induction ids with
  | nil => exact fun {s} h => ⟨s, rfl, h⟩
  | cons id ids ih =>
    intro s h
    obtain ⟨t, one, after⟩ := examine_blank slot dimension start h id
    obtain ⟨u, others, last⟩ := ih after
    refine ⟨u, ?_, last⟩
    unfold examineAll
    rw [Action.bind_of_ok one, Action.bind_of_ok others, List.filterMap_cons]
    cases spare? base slot dimension id <;> rfl

/-- The candidates among some resources, in the order in which they are tried. -/
def order (given : Option ResourceId) (found : List Candidate) : List Candidate :=
  if given.isNone then Candidate.rank found else found

variable (slot dimension) in
/-- The survey finds these candidates in their order, and has read the snapshot of each. -/
theorem candidates_blank (start : base.Blank G l 0 []) (h : s.Blank G l 0 read)
    (given : Option ResourceId) (ids : List ResourceId) :
    ∃ cs s', candidates given slot dimension ids s = .ok (cs, s')
      ∧ cs = order given (ids.filterMap (spare? base slot dimension))
      ∧ s'.Blank G l 0 (cs.map (·.resource) ++ read) ∧ s.Quiet s'
      ∧ ∀ c ∈ cs, c.Accurate s slot dimension := by
  have opened : (s.openReport .findingAvailableResource).Blank G l 0 [] :=
    (h.of_quiet (s.quiet_openReport _) (h.stands.congr rfl rfl rfl)).of_subset (List.nil_subset _)
  obtain ⟨u, all, -⟩ := examineAll_blank slot dimension start ids opened
  have found : available slot dimension ids s
      = .ok (ids.filterMap (spare? base slot dimension), u.closeReport) := by
    have unfolded : available slot dimension ids s
        = (do
          let candidates ← examineAll slot dimension ids
          modify (·.closeReport)
          pure candidates : Action (List Candidate)) (s.openReport .findingAvailableResource) := rfl
    rw [unfolded, Action.bind_of_ok all]
    rfl
  obtain ⟨s', run⟩ : ∃ s', candidates given slot dimension ids s
      = .ok (order given (ids.filterMap (spare? base slot dimension)), s') := by
    unfold candidates order
    rw [Action.bind_of_ok found]
    split <;> exact ⟨_, rfl⟩
  obtain ⟨quiet, accurate⟩ := candidates_ensures given slot dimension ids s _ _ run
  refine ⟨_, s', run, rfl, h.of_quiet quiet ?_, quiet, accurate⟩
  -- which snapshots have been read by then is known from a pairing of the survey with itself
  have itself : (candidates given slot dimension ids).Pairs (fun _ => False) s
      (candidates given slot dimension ids) s _ := candidates_pairs given dimension ids (h.alike h)
  obtain ⟨cs, _, -, same, alike⟩ := itself.exists_left run
  rw [same]
  exact alike.right

/-! ## A single candidate -/

/-- Only a resource that passes its check makes a candidate. -/
theorem examine_checks (slot : Slot) (dimension : Dimension) (id : ResourceId) (s : Session) :
    (examine slot dimension id).Ensures s fun found _ =>
      ∀ c ∈ found.toList, c.resource = id ∧ ∃ r, (s.checkResource id slot).1 = .ok r := by
  -- opening the report does not change what the check says
  have same : ((s.openReport (.checkingResource id)).checkResource id slot).1
      = (s.checkResource id slot).1 :=
    Session.checkResource_congr (s := s) (t := s.openReport (.checkingResource id)) rfl rfl slot
  unfold examine
  apply Action.Ensures.modify_bind
  apply Action.Ensures.modifyGet_bind
  rw [same]
  split
  · apply Action.Ensures.modify_bind
    apply Action.Ensures.modify_bind
    exact Action.Ensures.pure fun _ mem => nomatch mem
  · rename_i resource passed
    simp only
    apply Action.Ensures.ask_bind
    intro used _
    split
    · apply Action.Ensures.modify_bind
      apply Action.Ensures.modify_bind
      exact Action.Ensures.pure fun _ mem => nomatch mem
    · apply Action.Ensures.get_bind
      apply Action.Ensures.ask_bind
      intro candidate made
      apply Action.Ensures.modify_bind
      apply Action.Ensures.modify_bind
      apply Action.Ensures.pure
      intro c hc
      rw [Option.mem_toList] at hc
      cases hc
      rw [Candidate.make_eq_ok made]
      exact ⟨rfl, resource, passed⟩

variable {c : Candidate}

/-- A spare candidate is one that an examination ends with. -/
theorem examine_of_spare? (found : spare? s slot dimension id = some c) :
    ∃ s', examine slot dimension id s = .ok (some c, s') := by
  unfold spare? at found
  split at found
  · rename_i s' run
    rw [found] at run
    exact ⟨s', run⟩
  · cases found

/-- It stands for the resource that was examined. -/
theorem resource_of_spare? (found : spare? s slot dimension id = some c) : c.resource = id := by
  obtain ⟨s', run⟩ := examine_of_spare? found
  exact (examine_checks slot dimension id s _ _ run c (Option.mem_toList.2 rfl)).1

/-- Only resources that pass the check become candidates. -/
theorem checked_of_spare? (found : spare? s slot dimension id = some c) :
    ∃ r, (s.checkResource id slot).1 = .ok r := by
  obtain ⟨s', run⟩ := examine_of_spare? found
  exact (examine_checks slot dimension id s _ _ run c (Option.mem_toList.2 rfl)).2

/-- It counts what is free of that resource. -/
theorem accurate_of_spare? (found : spare? s slot dimension id = some c) :
    c.Accurate s slot dimension := by
  obtain ⟨s', run⟩ := examine_of_spare? found
  exact (examine_ensures slot dimension id s _ _ run).2 c (Option.mem_toList.2 rfl)

/-! ## The order of a free search -/

/-- The resources of the candidates among all usable ones, in the order in which they are tried. -/
def ranked (s : Session) (slot : Slot) (dimension : Dimension) (usable : Resource → Bool) :
    List ResourceId :=
  (Candidate.rank ((s.registry.select usable).filterMap (spare? s slot dimension))).map (·.resource)

/-- Only usable resources are ranked. -/
theorem mem_select_of_mem_ranked {usable : Resource → Bool}
    (mem : id ∈ ranked s slot dimension usable) :
    id ∈ s.registry.select usable := by
  obtain ⟨c, listed, rfl⟩ := List.mem_map.1 mem
  obtain ⟨id, selected, found⟩ := List.mem_filterMap.1 ((Candidate.rank_perm _).mem_iff.1 listed)
  rw [resource_of_spare? found]
  exact selected

end Survey

end Conference
