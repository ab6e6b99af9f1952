import Conference.Proofs.Search.Survey

/-!
# Free and fixed search

All allocations on a resource that need not be given have one form: see which resources come into
question, turn these into options, and try the options. Where no resource is given, the search comes
to what the same search comes to for the first resource, in the order of the options, for which it
succeeds at all.
-/

namespace Conference

open Session (Blank FoundAlike KeyAlike)

/-- A search for a resource that need not be given. -/
structure Search (γ : Type) where
  usable : Resource → Bool
  capability : String
  /-- The options that some resources make, with the given resource if there is one. -/
  options : Option ResourceId → List ResourceId → Action (List γ)
  tries : List γ → Action (Option Nat)
  refuse : List ResourceId → Attempt Nat

def Search.work {γ : Type} (search : Search γ) (slot : Slot) (given : Option ResourceId) :
    Attempt Nat := do
  let ids ← Survey.eligible given slot search.usable search.capability
  let options ← search.options given ids
  match ← search.tries options with
  | some key => pure key
  | none => search.refuse ids

/-! ## Attempts from the start -/

/-- From the start, the attempt fails. -/
def Attempt.Refuses (G : Ground) (l : Ledger) (a : Attempt Nat) : Prop :=
  ∀ s : Session, s.Blank G l 0 [] → ∃ e s', a s = .ok (.error e, s')

/-- From the start, the attempt comes to the same as has been found, but for the keys. -/
def Attempt.Yields (slot : Slot) (G : Ground) (l : Ledger) (a : Attempt Nat) (skipped key : Nat)
    (t : Session) : Prop :=
  ∀ s : Session, s.Blank G l 0 [] →
    ∃ key' s', a s = .ok (.ok key', s') ∧ KeyAlike G (.claims slot skipped False) [] key' s' key t

/-- The free attempt comes to what the first of the fixed ones comes to that succeeds. None succeeds
that is not listed. -/
structure Attempt.Agrees (slot : Slot) (G : Ground) (l : Ledger) (order : List ResourceId)
    (free : Attempt Nat) (fixed : ResourceId → Attempt Nat) : Prop where
  listed : ∀ r, r ∉ order → (fixed r).Refuses G l
  first : ∀ s : Session, s.Blank G l 0 [] →
    (∃ e s', free s = .ok (.error e, s') ∧ ∀ r ∈ order, (fixed r).Refuses G l)
      ∨ ∃ key s' skipped before r after, free s = .ok (.ok key, s') ∧ order = before ++ r :: after
        ∧ (∀ q ∈ before, (fixed q).Refuses G l) ∧ (fixed r).Yields slot G l skipped key s'

namespace Search

variable {γ : Type}

/-- What the parts of a search have to keep to, from the start on a ground. Each resource makes at
most one option; free search tries them in some arrangement. -/
structure Sound (search : Search γ) (slot : Slot) (G : Ground) (l : Ledger) (name : γ → ResourceId)
    (reads : γ → List ResourceId) (option? : ResourceId → Option γ)
    (arrange : List γ → List γ) : Prop where
  arranged : ∀ cs, (arrange cs).Perm cs
  named : ∀ {r c}, option? r = some c → name c = r
  turns : InTurn search.tries
  refuses : ∀ ids s, ∃ e s', search.refuse ids s = .ok (.error e, s')
  free : ∀ ids {s : Session}, s.Blank G l 0 [] →
    ∃ s' read, search.options none ids s = .ok (arrange (ids.filterMap option?), s')
      ∧ s'.Blank G l 0 read
      ∧ ∀ c ∈ arrange (ids.filterMap option?), reads c ⊆ read ∧ (search.tries [c]).Undone l s'
  fixed : ∀ r {s : Session}, s.Blank G l 0 [r] →
    ∃ s', search.options (some r) [r] s = .ok ((option? r).toList, s')
      ∧ ∀ c, option? r = some c → s'.Blank G l 0 (reads c)
  settled : ∀ {r c}, option? r = some c → (search.tries [c]).Settled slot G (reads c)
  checked : ∀ {r c key read} {s s' : Session}, option? r = some c → s.Stands G read →
    search.tries [c] s = .ok (some key, s') → ∃ resource, (s.checkResource r slot).1 = .ok resource

namespace Sound

variable {search : Search γ} {slot : Slot} {G : Ground} {l : Ledger} {name : γ → ResourceId}
  {reads : γ → List ResourceId} {option? : ResourceId → Option γ} {arrange : List γ → List γ}
  {s : Session} {r : ResourceId} {c : γ}

/-- With a given resource the search fails, or it comes down to the option that the resource
makes. -/
theorem work_given (sound : search.Sound slot G l name reads option? arrange) (r : ResourceId)
    (h : s.Blank G l 0 []) :
    ((∀ resource, (s.checkResource r slot).1 = .ok resource →
      search.usable resource → option? r = none)
        ∧ ∃ e s', search.work slot (some r) s = .ok (.error e, s'))
      ∨ ∃ resource c s', (s.checkResource r slot).1 = .ok resource ∧ search.usable resource
        ∧ option? r = some c ∧ s'.Blank G l 0 (reads c)
        ∧ search.work slot (some r) s = ((do
          match ← search.tries [c] with
          | some key => pure key
          | none => search.refuse [r]) : Attempt Nat) s' := by
  unfold work
  rcases Survey.eligible_given r slot search.usable search.capability s with
    ⟨unusable, e, s', failed⟩ | ⟨resource, checked, usable, eligible⟩
  · refine Or.inl ⟨fun resource checked usable => ?_, e, s', Attempt.bind_of_error failed⟩
    rw [unusable resource checked] at usable
    cases usable
  · have blank : (s.checkResource r slot).2.Blank G l 0 [r] :=
      h.of_quiet (s.quiet_checkResource r slot) (h.stands.checkResource checked)
    obtain ⟨s', options, ready⟩ := sound.fixed r blank
    rw [Attempt.bind_of_ok eligible, Attempt.lift_bind_of_ok options]
    cases made : option? r with
    | some c => exact Or.inr ⟨resource, c, s', checked, usable, rfl, ready c made, rfl⟩
    | none =>
      -- no option for the resource means nothing to try, which is refused
      have none_tried : search.tries [] s' = .ok (none, s') := by
        rw [sound.turns.nil]
        rfl
      obtain ⟨e, s'', refused⟩ := sound.refuses [r] s'
      refine Or.inl ⟨fun _ _ _ => rfl, e, s'', ?_⟩
      rw [Option.toList_none, Attempt.lift_bind_of_ok none_tried]
      exact refused

/-- If the option of a resource comes to nothing, search on the resource does. -/
theorem refuses_of_fails (sound : search.Sound slot G l name reads option? arrange)
    (made : option? r = some c) (fails : Fails G l (reads c) (search.tries [c])) :
    (search.work slot (some r)).Refuses G l := by
  intro s h
  rcases sound.work_given r h with ⟨-, refused⟩ | ⟨_, c', s', -, -, made', blank, tried⟩
  · exact refused
  · have same : c = c' := Option.some.inj (made.symm.trans made')
    subst same
    obtain ⟨s'', nothing⟩ := fails s' blank
    rw [tried, Attempt.lift_bind_of_ok nothing]
    exact sound.refuses [r] s''

/-- If the option of a usable resource is found, search on the resource finds it. -/
theorem yields_of_finds (sound : search.Sound slot G l name reads option? arrange)
    {skipped key : Nat} {start t : Session} (made : option? r = some c)
    (finds : Finds slot G l (reads c) (search.tries [c]) skipped key t)
    (ready : start.Blank G l 0 (reads c))
    (usable : ∃ resource, start.resource? r = some resource ∧ search.usable resource) :
    (search.work slot (some r)).Yields slot G l skipped key t := by
  -- the option would not be found if the resource did not pass the check
  obtain ⟨key₀, _, found, -⟩ := finds start ready
  obtain ⟨resource, passed⟩ := sound.checked made ready.stands found
  obtain ⟨resource', registered, fits⟩ := usable
  have same := Option.some.inj (registered.symm.trans (Session.resource?_of_checkResource passed))
  subst same
  intro s h
  rcases sound.work_given r h with ⟨unusable, -⟩ | ⟨_, c', s', -, -, made', blank, tried⟩
  · have checked := (ready.stands.checkResource_eq h.stands r slot).trans passed
    rw [made] at unusable
    cases unusable _ checked fits
  · have same : c = c' := Option.some.inj (made.symm.trans made')
    subst same
    obtain ⟨key', s'', one, shifted, alike⟩ := finds s' blank
    refine ⟨key', s'', ?_, shifted, alike.of_subset (List.nil_subset _)⟩
    rw [tried, Attempt.lift_bind_of_ok one]
    rfl

section Free

variable {base : Session} (start : base.Blank G l 0 [])
  (distinct : (base.registry.resources.map (·.id)).Nodup)

/-- The options of free search are those of the usable resources, each under the name of its
resource. -/
theorem option_of_mem (sound : search.Sound slot G l name reads option? arrange)
    (mem : c ∈ arrange ((base.registry.select search.usable).filterMap option?)) :
    name c ∈ base.registry.select search.usable ∧ option? (name c) = some c := by
  obtain ⟨r, selected, made⟩ := List.mem_filterMap.1 ((sound.arranged _).mem_iff.1 mem)
  rw [sound.named made]
  exact ⟨selected, made⟩

include start distinct in
/-- Search on a resource that is not listed fails, since a usable resource with an option is
listed. -/
theorem refuses_of_not_listed (sound : search.Sound slot G l name reads option? arrange)
    (missing : r ∉ (arrange ((base.registry.select search.usable).filterMap option?)).map name) :
    (search.work slot (some r)).Refuses G l := by
  intro s h
  rcases sound.work_given r h with ⟨-, refused⟩ | ⟨resource, c, s', checked, usable, made, -, -⟩
  · exact refused
  · have registered : base.resource? r = some resource := by
      rw [h.stands.resource?_eq start.stands]
      exact Session.resource?_of_checkResource checked
    have selected := (Registry.mem_select distinct).2 ⟨resource, registered, usable⟩
    have option := (sound.arranged _).mem_iff.2 (List.mem_filterMap.2 ⟨r, selected, made⟩)
    have listed := List.mem_map_of_mem (f := name) option
    rw [sound.named made] at listed
    exact absurd listed missing

include start in
/-- Free search comes down to trying the options, if there are usable resources at all. -/
theorem work_free (sound : search.Sound slot G l name reads option? arrange)
    (h : s.Blank G l 0 []) :
    (base.registry.select search.usable = [] ∧ ∃ e s', search.work slot none s = .ok (.error e, s'))
      ∨ ∃ s' read, s'.Blank G l 0 read
        ∧ (∀ c ∈ arrange ((base.registry.select search.usable).filterMap option?),
          reads c ⊆ read ∧ (search.tries [c]).Undone l s')
        ∧ search.work slot none s = ((do
          match ← search.tries (arrange ((base.registry.select search.usable).filterMap option?))
            with
          | some key => pure key
          | none => search.refuse (base.registry.select search.usable)) : Attempt Nat) s' := by
  -- both sessions select from the same resources
  have selected : s.registry.select search.usable = base.registry.select search.usable :=
    Registry.select_of_roll (h.stands.roll.trans start.stands.roll.symm) _
  unfold work
  rcases Survey.eligible_free slot search.usable search.capability s
    with ⟨empty, e, s', failed⟩ | eligible
  · rw [selected] at empty
    exact Or.inl ⟨empty, e, s', Attempt.bind_of_error failed⟩
  · rw [selected] at eligible
    obtain ⟨s', read, options, blank, each⟩ := sound.free (base.registry.select search.usable) h
    refine Or.inr ⟨s', read, blank, each, ?_⟩
    rw [Attempt.bind_of_ok eligible, Attempt.lift_bind_of_ok options]

/-- Free search agrees with search on given resources. -/
theorem agrees (sound : search.Sound slot G l name reads option? arrange)
    (start : base.Blank G l 0 []) (distinct : (base.registry.resources.map (·.id)).Nodup) :
    Attempt.Agrees slot G l
      ((arrange ((base.registry.select search.usable).filterMap option?)).map name)
      (search.work slot none) fun r => search.work slot (some r) := by
  refine ⟨fun r missing => sound.refuses_of_not_listed start distinct missing, fun s h => ?_⟩
  rcases sound.work_free start h with ⟨empty, failed⟩ | ⟨u, read, blank, each, tried⟩
  · obtain ⟨e, s', failed⟩ := failed
    refine Or.inl ⟨e, s', failed, fun r listed => ?_⟩
    obtain ⟨c, mem, -⟩ := List.mem_map.1 listed
    have selected := (sound.option_of_mem mem).1
    rw [empty] at selected
    cases selected
  · rw [tried]
    rcases sound.turns.first blank _ (fun c mem => sound.settled (sound.option_of_mem mem).2)
      (fun c mem => (each c mem).2) (fun c mem => (each c mem).1) blank with
      ⟨v, nothing, fails⟩ | ⟨skipped, key, v, before, c, after, found, split, fails, finds⟩
    · obtain ⟨e, v', refused⟩ := sound.refuses (base.registry.select search.usable) v
      refine Or.inl ⟨e, v', ?_, fun r listed => ?_⟩
      · rw [Attempt.lift_bind_of_ok nothing]
        exact refused
      · obtain ⟨c, mem, rfl⟩ := List.mem_map.1 listed
        exact sound.refuses_of_fails (sound.option_of_mem mem).2 (fails c mem)
    · -- the options before the one that is found, and that one, are options of their resources
      have option (d : γ) (mem : d ∈ before ++ c :: after) := sound.option_of_mem (split ▸ mem)
      have this : c ∈ before ++ c :: after := List.mem_append_right _ List.mem_cons_self
      refine Or.inr ⟨key, v, skipped, before.map name, name c, after.map name, ?_, ?_, ?_, ?_⟩
      · rw [Attempt.lift_bind_of_ok found]
        rfl
      · rw [split, List.map_append, List.map_cons]
      · intro q listed
        obtain ⟨b, mem, rfl⟩ := List.mem_map.1 listed
        exact sound.refuses_of_fails (option b (List.mem_append_left _ mem)).2 (fails b mem)
      · have ready : u.Blank G l 0 (reads c) := blank.of_subset (each c (split ▸ this)).1
        obtain ⟨resource, registered, usable⟩ := (Registry.mem_select distinct).1 (option c this).1
        refine sound.yields_of_finds (option c this).2 finds ready ⟨resource, ?_, usable⟩
        rw [start.stands.resource?_eq ready.stands]
        exact registered

end Free

end Sound

end Search

end Conference
