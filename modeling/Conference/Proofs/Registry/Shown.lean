import Conference.Proofs.Registry.Snapshot

/-!
# What a registry shows

Which snapshots a registry holds at the moment is of no importance for an allocation, since one that
is missing or out of date is read before it is used. What counts is the snapshot that a resource is
used by in the end: the one that is there if it is for the working interval, or else the one that
would be read. Neither the move to the interval nor the reading of snapshots changes it, nor the
resources and their places.
-/

namespace Conference.Registry

/-- The resources with their places in the order of registration, and the next place. -/
def roll (g : Registry) : List (Resource × Nat) × Nat :=
  (g.entries.map fun e => (e.resource, e.index), g.nextIndex)

/-- The snapshot that a resource is used by in an interval. -/
def shown (g : Registry) (inv : Inventory) (interval : Slot) (id : ResourceId) : Snapshot :=
  match ((g.setWorkingInterval interval).find? id).bind (·.snapshot) with
  | some s => if s.interval = interval then s else readSnapshot inv id interval
  | none => readSnapshot inv id interval

/-! ## The roll -/

section Roll

variable {g h : Registry}

/-- The roll tells which resources are registered, in their order. -/
theorem resources_of_roll (same : g.roll = h.roll) : g.resources = h.resources := by
  have resources (g : Registry) : g.resources = g.roll.1.map (·.1) := by
    rw [Registry.resources, roll, List.map_map]
    rfl
  rw [resources, resources, same]

/-- So it tells which of them a filter selects. -/
theorem select_of_roll (same : g.roll = h.roll) (p : Resource → Bool) :
    g.select p = h.select p := by
  have selected : g.resources = h.resources := resources_of_roll same
  unfold Registry.resources at selected
  unfold select
  rw [selected]

/-- It tells the index of each resource too. -/
theorem index?_of_roll (same : g.roll = h.roll) (id : ResourceId) : g.index? id = h.index? id := by
  have index (g : Registry) : g.index? id = (g.roll.1.find? (·.1.id == id)).map (·.2) := by
    rw [index?, find?, roll, List.find?_map, Option.map_map]
    rfl
  rw [index, index, same]

/-- The index of the next resource as well. -/
theorem nextIndex_of_roll (same : g.roll = h.roll) : g.nextIndex = h.nextIndex :=
  congrArg (·.2) same

/-- Snapshots are not on the roll. -/
@[simp]
theorem roll_clearSnapshots (g : Registry) : g.clearSnapshots.roll = g.roll := by
  simp [clearSnapshots, roll, Function.comp_def]

/-- A new working interval only costs snapshots. -/
@[simp]
theorem roll_setWorkingInterval (g : Registry) (interval : Slot) :
    (g.setWorkingInterval interval).roll = g.roll := by
  unfold setWorkingInterval
  split
  · rfl
  · rw [roll_clearSnapshots]
    rfl

/-- Making sure of a snapshot changes no resource and no index. -/
@[simp]
theorem roll_ensure (g : Registry) (id : ResourceId) (interval : Slot) (inv : Inventory) :
    (g.ensure id interval inv).2.roll = g.roll := by
  unfold ensure
  split
  · rfl
  · split
    · rfl
    · rw [← roll_setWorkingInterval g interval, refresh_eq]
      simp only [roll, List.map_map]
      congr 1
      refine List.map_congr_left fun e _ => ?_
      simp only [Function.comp_apply]
      split <;> rfl

end Roll

/-! ## Snapshots shown -/

section Shown

variable {g : Registry} {inv : Inventory} {interval : Slot}

/-- Snapshots are kept when the working interval stays. -/
theorem setWorkingInterval_of_eq (at_ : g.workingInterval = some interval) :
    g.setWorkingInterval interval = g := by
  rw [setWorkingInterval, if_pos at_]

/-- A move to the interval changes nothing of what is shown there. -/
@[simp]
theorem shown_setWorkingInterval (g : Registry) (inv : Inventory) (interval : Slot)
    (id : ResourceId) :
    (g.setWorkingInterval interval).shown inv interval id = g.shown inv interval id := by
  unfold shown
  rw [setWorkingInterval_of_eq (workingInterval_setWorkingInterval g interval)]

theorem shown_of_reflects (reflects : g.Reflects inv) (interval : Slot) (id : ResourceId) :
    g.shown inv interval id = readSnapshot inv id interval := by
  unfold shown
  split
  · rename_i s held
    obtain ⟨e, found, hs⟩ := Option.bind_eq_some_iff.1 held
    obtain ⟨interval', hi, rfl⟩ :=
      reflects_setWorkingInterval reflects interval e (List.mem_of_find?_eq_some found) s hs
    rw [workingInterval_setWorkingInterval] at hi
    rw [named_of_find? found, Option.some.inj hi]
    split <;> rfl
  · rfl

/-- In the working interval, a resource without a fresh snapshot is refreshed. -/
theorem find?_ensure (at_ : g.workingInterval = some interval) (id other : ResourceId) :
    (g.ensure id interval inv).2.find? other = (g.find? other).map fun e =>
      if e.resource.id == id then { e with snapshot := some (g.shown inv interval id) } else e := by
  have moved : g.setWorkingInterval interval = g := setWorkingInterval_of_eq at_
  have untouched (h : ∀ e, g.find? other = some e → e.resource.id = id →
      e.snapshot = some (g.shown inv interval id)) :
      g.find? other = (g.find? other).map fun e =>
        if e.resource.id == id then
          { e with snapshot := some (g.shown inv interval id) } else e := by
    cases found : g.find? other with
    | none => rfl
    | some e =>
      rw [Option.map_some]
      split
      · rename_i named
        rw [← h e found (eq_of_beq named)]
      · rfl
  unfold ensure
  split
  · rename_i absent
    refine untouched fun e found named => ?_
    rw [named_of_find? found] at named
    rw [named, absent] at found
    cases found
  · rename_i entry there
    split
    · rename_i fresh
      refine untouched fun e found named => ?_
      rw [named_of_find? found] at named
      rw [named, there] at found
      cases found
      -- a fresh snapshot is the one that is shown
      unfold isFresh at fresh
      rw [Bool.and_eq_true, Option.any_eq_true] at fresh
      obtain ⟨⟨s, held, current⟩, -⟩ := fresh
      unfold shown
      rw [moved, there, Option.bind_some, held]
      simp only
      rw [if_pos (eq_of_beq current)]
    · rename_i stale
      rw [find?_refresh, moved]
      have read : g.shown inv interval id = readSnapshot inv id interval := by
        unfold shown
        rw [moved, there, Option.bind_some]
        split
        · rename_i s held
          refine if_neg fun current => stale ?_
          unfold isFresh
          rw [held, at_]
          simp [current]
        · rfl
      rw [read]

/-- What is shown has been read for the interval in question, whether it was held already or not. -/
theorem interval_shown (g : Registry) (inv : Inventory) (interval : Slot) (id : ResourceId) :
    (g.shown inv interval id).interval = interval := by
  unfold shown
  split
  · split
    · assumption
    · rfl
  · rfl

/-- A registered resource is made sure of in the same way before and after the move to the
interval. -/
theorem ensure_setWorkingInterval {id : ResourceId} (registered : g.contains id) :
    (g.ensure id interval inv).2 = ((g.setWorkingInterval interval).ensure id interval inv).2 := by
  by_cases at_ : g.workingInterval = some interval
  · rw [setWorkingInterval_of_eq at_]
  · -- nothing is fresh, neither before the move nor after it
    have cleared : ∀ e ∈ (g.setWorkingInterval interval).entries, e.snapshot = none := by
      rw [setWorkingInterval, if_neg at_]
      intro e he
      obtain ⟨e', -, rfl⟩ := List.mem_map.1 he
      rfl
    have before : (g.ensure id interval inv).2 = (g.refresh id interval inv).2 := by
      unfold ensure
      rw [← isSome_find?] at registered
      obtain ⟨e, found⟩ := Option.isSome_iff_exists.1 registered
      rw [found]
      simp only
      rw [if_neg (by simp [isFresh, at_])]
    have after : ((g.setWorkingInterval interval).ensure id interval inv).2
        = ((g.setWorkingInterval interval).refresh id interval inv).2 := by
      unfold ensure
      rw [← contains_setWorkingInterval g interval, ← isSome_find?] at registered
      obtain ⟨e, found⟩ := Option.isSome_iff_exists.1 registered
      rw [found]
      simp only
      rw [if_neg (by simp [isFresh, cleared e (List.mem_of_find?_eq_some found)])]
    rw [before, after, refresh_eq, refresh_eq,
      setWorkingInterval_of_eq (workingInterval_setWorkingInterval g interval)]

/-- Nothing is read for an id that is not registered. -/
theorem ensure_of_not_contains {id : ResourceId} (absent : ¬ g.contains id) :
    (g.ensure id interval inv).2 = g := by
  rw [← isSome_find?, Option.not_isSome_iff_eq_none] at absent
  unfold ensure
  rw [absent]

/-- Reading one snapshot changes nothing of what is shown. -/
theorem shown_ensure (g : Registry) (inv : Inventory) (interval : Slot) (id other : ResourceId) :
    (g.ensure id interval inv).2.shown inv interval other = g.shown inv interval other := by
  by_cases registered : g.contains id
  · rw [ensure_setWorkingInterval registered, ← shown_setWorkingInterval g]
    have at_ := workingInterval_setWorkingInterval g interval
    have stays := setWorkingInterval_of_eq (workingInterval_ensure at_ id inv)
    generalize g.setWorkingInterval interval = g at at_ stays
    cases found : g.find? other with
    | none =>
      unfold shown
      rw [stays, find?_ensure at_, setWorkingInterval_of_eq at_, found]
      rfl
    | some e =>
      by_cases named : e.resource.id == id
      · -- what has been read is what is shown of the resource
        have same : other = id := (named_of_find? found).symm.trans (eq_of_beq named)
        have held : ((g.ensure id interval inv).2.find? other).bind (·.snapshot)
            = some (g.shown inv interval id) := by
          rw [find?_ensure at_, found, Option.map_some, if_pos named]
          rfl
        rw [shown, stays, held, same]
        exact if_pos (interval_shown g inv interval id)
      · have kept : (g.ensure id interval inv).2.find? other = g.find? other := by
          rw [find?_ensure at_, found, Option.map_some, if_neg named]
        unfold shown
        rw [stays, setWorkingInterval_of_eq at_, kept]
  · rw [ensure_of_not_contains registered]

/-- After a snapshot has been made sure of, it is there, and for the interval. -/
theorem snapshot_ensure {id : ResourceId} (registered : g.contains id) :
    (g.ensure id interval inv).2.workingInterval = some interval
      ∧ (g.ensure id interval inv).2.snapshot id = .ok (g.shown inv interval id) := by
  rw [ensure_setWorkingInterval registered, ← shown_setWorkingInterval g]
  have at_ := workingInterval_setWorkingInterval g interval
  rw [← contains_setWorkingInterval g interval, ← isSome_find?] at registered
  obtain ⟨e, found⟩ := Option.isSome_iff_exists.1 registered
  refine ⟨workingInterval_ensure at_ id inv, ?_⟩
  unfold snapshot
  rw [find?_ensure at_, found, Option.map_some, if_pos (beq_iff_eq.2 (named_of_find? found))]
  rfl

/-- Snapshots that are there stay there. -/
theorem snapshot_ensure_of_shown (at_ : g.workingInterval = some interval) (id : ResourceId)
    {other : ResourceId} (held : g.snapshot other = .ok (g.shown inv interval other)) :
    (g.ensure id interval inv).2.snapshot other = .ok (g.shown inv interval other) := by
  have registered : g.contains other := by
    rw [← isSome_find?]
    unfold snapshot at held
    cases found : g.find? other with
    | none =>
      rw [found] at held
      cases held
    | some e => rfl
  -- the snapshot that is ensured is made anew, another one is not touched
  by_cases same : other = id
  · subst same
    exact (snapshot_ensure registered).2
  · rw [← held]
    unfold snapshot
    rw [find?_ensure at_]
    cases found : g.find? other with
    | none => rfl
    | some e =>
      have apart : ¬ (e.resource.id == id) = true := by
        rw [named_of_find? found, beq_iff_eq]
        exact same
      rw [Option.map_some, if_neg apart]

end Shown

end Conference.Registry
