import Conference.Proofs.Parallel.Scheduler
import Conference.Proofs.Pass.Run
import Conference.Proofs.Sample
import Conference.Proofs.Search.Kinds

/-!
# Free search agrees with fixed search

A room, an alias or a recording may be asked for on a given resource or on any. Where any will do,
the scheduler tries one resource after the other in a session that goes on changing. It finds what
it would find if the first resource that has what is asked for had been given, and it finds nothing
only if no resource has it.
-/

namespace Conference

namespace Specification

/-- Any resource will do that has what is asked for. -/
def IsFree : Specification → Prop
  | room spec => spec.resource = none
  | recording spec => spec.resource = none
  | dialAlias spec => spec.resource = none
  | resource _ => False
  | compartment _ => False

/-- The same on a given resource, or on any, if it is a room, an alias or a recording. -/
def on (spec : Specification) (given : Option ResourceId) : Specification :=
  match spec with
  | room spec => room { spec with resource := given }
  | recording spec => recording { spec with resource := given }
  | dialAlias spec => dialAlias { spec with resource := given }
  | other => other

/-- A free specification names no resource, so taking the name away changes nothing. -/
theorem on_none {spec : Specification} (free : spec.IsFree) : spec.on none = spec := by
  cases spec with
  | resource _ => rfl
  | compartment _ => rfl
  | room spec =>
    cases spec
    -- nothing is given, so nothing is replaced
    cases free
    rfl
  | recording spec =>
    cases spec
    cases free
    rfl
  | dialAlias spec =>
    cases spec
    cases free
    rfl

/-- What a specification asks a session to do. -/
def work (spec : Specification) (slot : Slot) : Attempt Nat :=
  ((Work.ofSpecification spec).job slot).work slot

end Specification

theorem Work.slot_job (work : Work) (slot : Slot) : (work.job slot).slot = slot := by
  cases work <;> rfl

theorem Work.state_job (work : Work) (slot : Slot) : (work.job slot).state = .created := by
  cases work <;> rfl

namespace Scheduler

/-- Schedulers come from inventories. The inventory may be changed at any time. -/
inductive Arises : Scheduler → Prop where
  | ofInventory (inv : Inventory) : Arises (.ofInventory inv)
  | change {s : Scheduler} (inv : Inventory) : Arises s → Arises { s with inventory := inv }
  | reload {s : Scheduler} : Arises s → Arises s.reload
  | openPass {s : Scheduler} (pass : String) (interval : Slot) : Arises s →
    Arises (s.openPass pass interval).2
  | allocate {s : Scheduler} {spec : Specification} {slot : Slot} {ledger : Ledger}
    {done : Allocated} : Arises s → s.allocate spec slot ledger = .ok done → Arises done.scheduler

/-- The allocation succeeds. -/
def Grants (s : Scheduler) (spec : Specification) (slot : Slot) (ledger : Ledger) : Prop :=
  ∃ done tree, s.allocate spec slot ledger = .ok done ∧ done.result = .ok tree

/-- Whether an allocation grants can be read off its result, which makes it decidable. -/
theorem grants_iff {s : Scheduler} {spec : Specification} {slot : Slot} {ledger : Ledger} :
    s.Grants spec slot ledger
      ↔ (s.allocate spec slot ledger).toOption.any (fun done => done.result.isOk) = true := by
  unfold Grants
  cases s.allocate spec slot ledger with
  | error fault => simp [Except.toOption]
  | ok done =>
    cases result : done.result <;> simp [Except.toOption, Except.isOk, Except.toBool, result]

instance (s : Scheduler) (spec : Specification) (slot : Slot) (ledger : Ledger) :
    Decidable (s.Grants spec slot ledger) :=
  decidable_of_iff _ grants_iff.symm

/-- Both allocations have made the same tree, but for its keys, and the same claims. -/
def Allocated.Matches (done done' : Allocated) : Prop :=
  ∃ tree tree' skipped, done.result = .ok tree ∧ done'.result = .ok tree'
    ∧ tree = tree'.shift skipped
    ∧ done.ledger.applied.map Allocation.claim = done'.ledger.applied.map Allocation.claim

/-- The resources of the candidates of a survey, as they are ranked. -/
def rankedOrder (s : Scheduler) (slot : Slot) (ledger : Ledger) (dimension : Dimension)
    (usable : Resource → Bool) : List ResourceId :=
  match Survey.candidates none slot dimension (s.registry.select usable) (s.session ledger) with
  | .ok (candidates, _) => candidates.map (·.resource)
  | .error _ => []

/-- The order in which resources are tried for a specification that leaves the resource open. -/
def searchOrder (s : Scheduler) (spec : Specification) (slot : Slot) (ledger : Ledger) :
    List ResourceId :=
  match spec with
  | .room spec => s.rankedOrder slot ledger .roomLicenses spec.isUsable
  | .dialAlias spec => s.rankedOrder slot ledger .values (spec.isUsable none)
  | .recording spec =>
    if spec.enabled then s.rankedOrder slot ledger .recordingLicenses spec.isUsable
    -- a service that takes no licenses is placed by the order of registration
    else s.registry.select spec.isUsable
  | .resource _ | .compartment _ => []

/-- The first resource in the search order that has what is asked for. -/
def First (s : Scheduler) (spec : Specification) (slot : Slot) (ledger : Ledger)
    (r : ResourceId) : Prop :=
  s.Grants (spec.on (some r)) slot ledger
    ∧ ∃ before after, s.searchOrder spec slot ledger = before ++ r :: after
      ∧ ∀ q ∈ before, ¬ s.Grants (spec.on (some q)) slot ledger

/-! ## The registry of a scheduler -/

section Registry

variable {s : Scheduler} {slot : Slot} {ledger : Ledger}

/-- The registered resources have distinct identifiers in every scheduler that can arise. -/
theorem Arises.distinct (h : s.Arises) : (s.registry.resources.map (·.id)).Nodup := by
  -- registering skips an identifier that is there, and nothing else brings resources in
  induction h with
  | ofInventory inv => exact Registry.distinct_load _ inv
  | change _ _ ih => exact ih
  | reload _ _ => exact Registry.distinct_load _ _
  | openPass pass interval _ ih =>
    rw [resources_openPass]
    exact ih
  | allocate _ run ih =>
    obtain ⟨after, reached, -, left⟩ := exists_reaches run
    obtain ⟨made, builds⟩ := reached.exists_builds
    have resources := builds.agrees.resources.trans (Registry.resources_setWorkingInterval _ _)
    rw [left, resources]
    exact ih

/-- A session begins blank: it has read nothing and claimed nothing. -/
theorem blank_session (s : Scheduler) (ledger : Ledger) :
    (s.session ledger).Blank (s.session ledger).ground ledger 0 [] where
  claims := rfl
  reservations := (ReservationForest.shift_zero _).symm
  stands := Session.stands_ground _

/-- Starting a session selects from the same resources. -/
theorem select_session (s : Scheduler) (ledger : Ledger) (usable : Resource → Bool) :
    (s.session ledger).registry.select usable = s.registry.select usable :=
  Registry.select_of_roll (Registry.roll_setWorkingInterval _ _) usable

/-- The ranked order can be read off the session that an allocation begins with. -/
theorem rankedOrder_eq (s : Scheduler) (slot : Slot) (ledger : Ledger) (dimension : Dimension)
    (usable : Resource → Bool) :
    s.rankedOrder slot ledger dimension usable
      = Survey.ranked (s.session ledger) slot dimension usable := by
  have start := s.blank_session ledger
  obtain ⟨cs, s', run, rfl, -⟩ := Survey.candidates_blank slot dimension start start none
    (s.registry.select usable)
  unfold rankedOrder Survey.ranked
  rw [run, select_session]
  rfl

/-- What is selected is registered. -/
theorem contains_of_mem_select {g : Registry} {usable : Resource → Bool} {id : ResourceId}
    (mem : id ∈ g.select usable) : g.contains id := by
  obtain ⟨r, usable, rfl⟩ := List.mem_map.1 mem
  exact (g.contains_iff_mem_resources r.id).2 ⟨r, (List.mem_filter.1 usable).1, rfl⟩

/-- Only registered resources are tried. -/
theorem contains_of_mem_searchOrder {spec : Specification} {id : ResourceId}
    (mem : id ∈ s.searchOrder spec slot ledger) : s.registry.contains id := by
  -- a ranked candidate has been selected from the registry
  have ranked {dimension : Dimension} {usable : Resource → Bool}
      (mem : id ∈ s.rankedOrder slot ledger dimension usable) : s.registry.contains id := by
    rw [rankedOrder_eq] at mem
    have selected := Survey.mem_select_of_mem_ranked mem
    rw [select_session] at selected
    exact contains_of_mem_select selected
  unfold searchOrder at mem
  split at mem
  · exact ranked mem
  · exact ranked mem
  · split at mem
    · exact ranked mem
    · exact contains_of_mem_select mem
  · cases mem
  · cases mem

end Registry

/-! ## One search -/

section Agreement

variable {s : Scheduler} {spec : Specification} {slot : Slot} {ledger : Ledger}

/-- The free search agrees with the searches at the single resources, for each kind of specification
that has one. -/
theorem work_agrees (distinct : (s.registry.resources.map (·.id)).Nodup) (free : spec.IsFree)
    (slot : Slot) (ledger : Ledger) :
    Attempt.Agrees slot (s.session ledger).ground ledger
      (s.searchOrder spec slot ledger) (spec.work slot)
      fun r => (spec.on (some r)).work slot := by
  have start := s.blank_session ledger
  -- moving the working interval drops snapshots and no resources
  have registered : ((s.session ledger).registry.resources.map (·.id)).Nodup := by
    have same : (s.session ledger).registry.resources = s.registry.resources :=
      Registry.resources_setWorkingInterval _ _
    rw [same]
    exact distinct
  -- a free specification is itself with no resource given, which is how the searches are stated
  rw [← Specification.on_none free]
  cases spec with
  | resource id => exact free.elim
  | compartment participants => exact free.elim
  | room spec =>
    unfold searchOrder
    simp only [rankedOrder_eq]
    exact spec.agrees start registered
  | dialAlias spec =>
    unfold searchOrder
    simp only [rankedOrder_eq]
    exact spec.agrees none start registered
  | recording spec =>
    unfold searchOrder
    simp only [rankedOrder_eq, ← select_session s ledger]
    exact spec.agrees start registered

/-! ## From work to allocations -/

/-- The session in which the work on a specification starts. -/
def entered (s : Scheduler) (ledger : Ledger) (spec : Specification) (slot : Slot) : Session :=
  (s.session ledger).enter ((Work.ofSpecification spec).job slot).title

/-- Entering a task only reports. -/
theorem blank_entered (s : Scheduler) (ledger : Ledger) (spec : Specification) (slot : Slot) :
    (s.entered ledger spec slot).Blank (s.session ledger).ground ledger 0 [] :=
  (s.blank_session ledger).of_quiet (Session.quiet_enter _ _)
    ((s.blank_session ledger).stands.congr rfl rfl rfl)

/-- When the work fails, nothing is granted. -/
theorem not_grants_of_error
    (failed : ledger.workingInterval.contains slot →
      ∃ e t, spec.work slot (s.entered ledger spec slot) = .ok (.error e, t)) :
    ¬ s.Grants spec slot ledger := by
  rintro ⟨done, tree, run, result⟩
  have performed := Job.exists_perform_error (s := s.session ledger)
    (Work.state_job (Work.ofSpecification spec) slot)
  rw [Work.slot_job] at performed
  obtain ⟨e, after, t, performed⟩ := performed failed
  unfold allocate at run
  rw [performed] at run
  cases run
  cases result

/-- Work that refuses wherever it starts blank grants nothing. -/
theorem not_grants_of_refuses
    (refuses : (spec.work slot).Refuses (s.session ledger).ground ledger) :
    ¬ s.Grants spec slot ledger :=
  not_grants_of_error fun _ => refuses _ (s.blank_entered ledger spec slot)

/-- When the work succeeds within the working interval, its tree is the result. -/
theorem allocate_of_ok (within : ledger.workingInterval.contains slot) {key : Nat} {t : Session}
    (worked : spec.work slot (s.entered ledger spec slot) = .ok (.ok key, t)) :
    s.allocate spec slot ledger = s.conclude (.ok key) t.leave := by
  have inside : (s.session ledger).ledger.workingInterval.contains
      ((Work.ofSpecification spec).job slot).slot := by
    rw [Work.slot_job]
    exact within
  -- the work of the specification is that of its job
  have worked' : ((Work.ofSpecification spec).job slot).work
      ((Work.ofSpecification spec).job slot).slot
      ((s.session ledger).enter ((Work.ofSpecification spec).job slot).title)
        = .ok (.ok key, t) := by
    rw [Work.slot_job]
    exact worked
  unfold allocate
  rw [Job.perform_of_ok (Work.state_job _ _) inside worked']
  rfl

/-- Work that comes to the same, but for the keys, makes allocations that match. -/
theorem matches_of_alike {spec' : Specification} (within : ledger.workingInterval.contains slot)
    {key key' skipped : Nat} {t t' : Session} {G : Ground}
    (worked : spec.work slot (s.entered ledger spec slot) = .ok (.ok key, t))
    (worked' : spec'.work slot (s.entered ledger spec' slot) = .ok (.ok key', t'))
    (alike : Session.KeyAlike G (.claims slot skipped False) [] key' t' key t) :
    ∃ done done', s.allocate spec slot ledger = .ok done ∧ s.allocate spec' slot ledger = .ok done'
      ∧ done.Matches done' := by
  have left : Attempt.Meet (Session.KeyAlike G (.claims slot skipped False) [])
      (Session.FailAlike G (.claims slot skipped False) []) (.ok key') t'.leave (.ok key) t.leave :=
    ⟨alike.1, alike.2.report Session.reporting_leave⟩
  obtain ⟨done', done, concluded', concluded, same⟩ := conclude_alike s s left
  -- a key that is concluded gives a tree, as no slot is violated
  have tree_of {u : Session} {root : Nat} {d : Allocated} (h : s.conclude (.ok root) u = .ok d) :
      ∃ tree, d.result = .ok tree := by
    unfold conclude at h
    simp only at h
    split at h
    · cases h
    · cases h
      exact ⟨_, rfl⟩
  obtain ⟨tree, result⟩ := tree_of concluded
  obtain ⟨tree', result'⟩ := tree_of concluded'
  have trees := same.result
  rw [result, result'] at trees
  rw [allocate_of_ok within worked, allocate_of_ok within worked']
  exact ⟨done, done', concluded, concluded', tree, tree', skipped, result,
    result', trees, same.ledger⟩

/-- What a free allocation comes to. -/
theorem allocate_free (distinct : (s.registry.resources.map (·.id)).Nodup) (free : spec.IsFree)
    (slot : Slot) (ledger : Ledger) :
    (¬ s.Grants spec slot ledger ∧ ∀ r, ¬ s.Grants (spec.on (some r)) slot ledger)
      ∨ ∃ done r done', s.allocate spec slot ledger = .ok done ∧ s.First spec slot ledger r
        ∧ s.allocate (spec.on (some r)) slot ledger = .ok done' ∧ done.Matches done' := by
  have agrees := work_agrees distinct free slot ledger
  by_cases within : ledger.workingInterval.contains slot
  · rcases agrees.first _ (s.blank_entered ledger spec slot) with
      ⟨e, t, failed, refuses⟩ | ⟨key, t, skipped, before, r, after, worked, split, refuses, yields⟩
    · refine Or.inl ⟨not_grants_of_error fun _ => ⟨e, t, failed⟩, fun r => ?_⟩
      by_cases listed : r ∈ s.searchOrder spec slot ledger
      · exact not_grants_of_refuses (refuses r listed)
      · exact not_grants_of_refuses (agrees.listed r listed)
    · -- the fixed allocation starts from a session as good as that of the free one
      obtain ⟨key', t', worked', alike⟩ := yields _ (s.blank_entered ledger (spec.on (some r)) slot)
      obtain ⟨done, done', ran, ran', same⟩ := matches_of_alike within worked worked' alike
      have granted : s.Grants (spec.on (some r)) slot ledger := by
        obtain ⟨_, tree', _, -, result', -⟩ := same
        exact ⟨done', tree', ran', result'⟩
      refine Or.inr ⟨done, r, done', ran,
        ⟨granted, before, after, split, fun q mem => ?_⟩, ran', same⟩
      exact not_grants_of_refuses (refuses q mem)
  · -- a slot outside the working interval is refused in any case
    exact Or.inl ⟨not_grants_of_error fun inside => absurd inside within,
      fun r => not_grants_of_error fun inside => absurd inside within⟩

/-- Free search agrees with the fixed path. It succeeds iff it succeeds for some registered
resource. Each such resource is in the search order, and free search makes the tree and the claims
that the fixed allocation makes on the first of them; the keys of the tree are ahead by those that
were used up before. -/
theorem free_search_agrees (arises : s.Arises) (free : spec.IsFree) (slot : Slot)
    (ledger : Ledger) :
    (s.Grants spec slot ledger
        ↔ ∃ r, s.registry.contains r ∧ s.Grants (spec.on (some r)) slot ledger)
      ∧ (∀ r, s.Grants (spec.on (some r)) slot ledger → r ∈ s.searchOrder spec slot ledger)
      ∧ ∀ done tree, s.allocate spec slot ledger = .ok done → done.result = .ok tree →
        ∃ r done', s.First spec slot ledger r
          ∧ s.allocate (spec.on (some r)) slot ledger = .ok done'
          ∧ done.Matches done' := by
  have listed (r : ResourceId) (grants : s.Grants (spec.on (some r)) slot ledger) :
      r ∈ s.searchOrder spec slot ledger := by
    by_contra missing
    exact not_grants_of_refuses
      ((work_agrees arises.distinct free slot ledger).listed r missing) grants
  -- either nothing is granted on both sides, or the first resource that would be granted is taken
  rcases allocate_free arises.distinct free slot ledger with
    ⟨refused, no_resource⟩ | ⟨found, r, done', ran, first, ran', same⟩
  · refine ⟨⟨fun grants => absurd grants refused, ?_⟩, listed, fun done tree ran result => ?_⟩
    · rintro ⟨r, -, grants⟩
      exact absurd grants (no_resource r)
    · exact absurd ⟨done, tree, ran, result⟩ refused
  · have registered := contains_of_mem_searchOrder (listed r first.1)
    refine ⟨⟨fun _ => ⟨r, registered, first.1⟩, fun _ => ?_⟩, listed, fun done tree ran₁ _ => ?_⟩
    · obtain ⟨tree, _, _, result, -⟩ := same
      exact ⟨found, tree, ran, result⟩
    · have one : found = done := Except.ok.inj (ran.symm.trans ran₁)
      rw [← one]
      exact ⟨r, done', first, ran', same⟩

/-- A meeting with an alias is tried in the hall, where no alias can be had, and is then given a
place in the annex. -/
theorem free_search_in_branches :
    let s := Scheduler.ofInventory Sample.branches
    let slot : Slot := ⟨1, 5, by decide⟩
    let ledger := Ledger.empty "pass" ⟨0, 100, by decide⟩
    s.searchOrder Sample.meeting slot ledger = [Sample.hall.id, Sample.annex.id]
      ∧ ∃ done done', s.allocate Sample.meeting slot ledger = .ok done
        ∧ s.allocate (Sample.meeting.on (some Sample.annex.id)) slot ledger = .ok done'
        ∧ done.Matches done' := by
  intro s slot ledger
  have order : s.searchOrder Sample.meeting slot ledger = [Sample.hall.id, Sample.annex.id] := by
    decide +kernel
  have free : Sample.meeting.IsFree := rfl
  have granted : s.Grants Sample.meeting slot ledger := by decide +kernel
  have not_in_hall : ¬ s.Grants (Sample.meeting.on (some Sample.hall.id)) slot ledger := by
    decide +kernel
  obtain ⟨done, tree, ran, result⟩ := granted
  obtain ⟨-, listed, agrees⟩ := free_search_agrees (.ofInventory Sample.branches) free slot ledger
  obtain ⟨r, done', ⟨granted, -⟩, ran', same⟩ := agrees done tree ran result
  -- the hall is before the annex but not free
  have in_annex : r = Sample.annex.id := by
    have among : r ∈ [Sample.hall.id, Sample.annex.id] := order ▸ listed r granted
    rcases List.mem_cons.1 among with rfl | rest
    · exact absurd granted not_in_hall
    · exact List.mem_singleton.1 rest
  rw [in_annex] at ran'
  exact ⟨order, done, done', ran, ran', same⟩

end Agreement

end Scheduler

end Conference
