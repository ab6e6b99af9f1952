import Conference.Registry

/-!
# Snapshots of the inventory

A registry *reflects* an inventory when each of its snapshots is the one that reading the inventory
for the working interval gives. As long as the inventory stays as it is, all operations keep this:
they drop snapshots, or read them. Nor does any of them but loading touch the registered resources.
-/

namespace Conference.Registry

/-- The registered resources, in order of registration. -/
def resources (g : Registry) : List Resource := g.entries.map (·.resource)

theorem get?_eq_find? (g : Registry) (id : ResourceId) :
    g.get? id = g.resources.find? (·.id == id) := by
  rw [get?, find?, resources, List.find?_map]
  rfl

/-- What an identifier leads to depends on the resources only, not on snapshots or indexes. -/
theorem get?_congr {g h : Registry} (same : g.resources = h.resources) (id : ResourceId) :
    g.get? id = h.get? id := by
  rw [get?_eq_find?, get?_eq_find?, same]

/-- An identifier is contained just if a resource bears it. -/
theorem contains_iff_mem_resources (g : Registry) (id : ResourceId) :
    g.contains id ↔ ∃ r ∈ g.resources, r.id = id := by
  rw [contains, List.any_eq_true]
  constructor
  · rintro ⟨e, he, hit⟩
    exact ⟨e.resource, List.mem_map_of_mem he, eq_of_beq hit⟩
  · rintro ⟨r, hr, rfl⟩
    obtain ⟨e, he, rfl⟩ := List.mem_map.1 hr
    exact ⟨e, he, beq_self_eq_true _⟩

/-- Every snapshot is what the inventory holds for the working interval. -/
def Reflects (g : Registry) (inv : Inventory) : Prop :=
  ∀ e ∈ g.entries, ∀ s, e.snapshot = some s →
    ∃ interval, g.workingInterval = some interval ∧ s = readSnapshot inv e.resource.id interval

/-! ## What the operations keep -/

@[simp]
theorem resources_clearSnapshots (g : Registry) : g.clearSnapshots.resources = g.resources := by
  simp [clearSnapshots, resources, Function.comp_def]

/-- Without snapshots there is nothing to be out of date. -/
theorem reflects_clearSnapshots (g : Registry) (inv : Inventory) :
    g.clearSnapshots.Reflects inv := by
  intro e he s hs
  obtain ⟨e', -, rfl⟩ := List.mem_map.1 he
  cases hs

@[simp]
theorem resources_setWorkingInterval (g : Registry) (interval : Slot) :
    (g.setWorkingInterval interval).resources = g.resources := by
  unfold setWorkingInterval
  split
  · rfl
  · rw [resources_clearSnapshots]
    rfl

/-- The interval is the one that is set, also when it was that before. -/
@[simp]
theorem workingInterval_setWorkingInterval (g : Registry) (interval : Slot) :
    (g.setWorkingInterval interval).workingInterval = some interval := by
  unfold setWorkingInterval
  split
  · assumption
  · rfl

/-- Another interval clears the snapshots, the same one leaves them valid. -/
theorem reflects_setWorkingInterval {g : Registry} {inv : Inventory} (h : g.Reflects inv)
    (interval : Slot) : (g.setWorkingInterval interval).Reflects inv := by
  unfold setWorkingInterval
  split
  · exact h
  · exact reflects_clearSnapshots _ inv

/-- A refresh moves to the interval and touches only the snapshot that it reads. -/
theorem refresh_eq (g : Registry) (id : ResourceId) (interval : Slot) (inv : Inventory) :
    (g.refresh id interval inv).2 =
      { g.setWorkingInterval interval with
        entries := (g.setWorkingInterval interval).entries.map fun e =>
          if e.resource.id == id then { e with snapshot := some (readSnapshot inv id interval) }
          else e } := by
  unfold refresh
  simp only
  split
  · rfl
  · rename_i absent
    -- no entry bears the identifier, so the map changes none
    have same : ∀ e ∈ (g.setWorkingInterval interval).entries,
        (if e.resource.id == id then { e with snapshot := some (readSnapshot inv id interval) }
          else e) = e := by
      intro e he
      refine if_neg fun hit => absent ?_
      exact List.any_eq_true.2 ⟨e, he, hit⟩
    rw [List.map_congr_left same, List.map_id']

/-- Refreshing replaces a snapshot, never a resource. -/
@[simp]
theorem resources_refresh (g : Registry) (id : ResourceId) (interval : Slot) (inv : Inventory) :
    (g.refresh id interval inv).2.resources = g.resources := by
  rw [← resources_setWorkingInterval g interval, refresh_eq]
  simp only [resources, List.map_map]
  refine List.map_congr_left fun e _ => ?_
  simp only [Function.comp_apply]
  split <;> rfl

/-- A snapshot that is taken anew shows the inventory, and the others have shown it. -/
theorem reflects_refresh {g : Registry} {inv : Inventory} (h : g.Reflects inv) (id : ResourceId)
    (interval : Slot) : (g.refresh id interval inv).2.Reflects inv := by
  rw [refresh_eq]
  intro e he s hs
  obtain ⟨e', he', rfl⟩ := List.mem_map.1 he
  by_cases hit : e'.resource.id == id
  · rw [if_pos hit] at hs ⊢
    refine ⟨interval, workingInterval_setWorkingInterval g interval, ?_⟩
    rw [show e'.resource.id = id from eq_of_beq hit]
    exact (Option.some.inj hs).symm
  · rw [if_neg hit] at hs ⊢
    exact reflects_setWorkingInterval h interval e' he' s hs

@[simp]
theorem resources_ensure (g : Registry) (id : ResourceId) (interval : Slot) (inv : Inventory) :
    (g.ensure id interval inv).2.resources = g.resources := by
  unfold ensure
  split
  · rfl
  · split
    · rfl
    · exact resources_refresh g id interval inv

/-- A snapshot is kept if it is for the interval, and taken anew otherwise. -/
theorem reflects_ensure {g : Registry} {inv : Inventory} (h : g.Reflects inv) (id : ResourceId)
    (interval : Slot) : (g.ensure id interval inv).2.Reflects inv := by
  unfold ensure
  split
  · exact h
  · split
    · exact h
    · exact reflects_refresh h id interval

/-- Refreshing for the working interval stays in it. -/
theorem workingInterval_ensure {g : Registry} {interval : Slot}
    (h : g.workingInterval = some interval) (id : ResourceId) (inv : Inventory) :
    (g.ensure id interval inv).2.workingInterval = some interval := by
  unfold ensure
  split
  · exact h
  · split
    · exact h
    · rw [refresh_eq]
      exact workingInterval_setWorkingInterval g interval

/-- The snapshot that a registry in step with the inventory shows. -/
theorem eq_readSnapshot {g : Registry} {inv : Inventory} {id : ResourceId} {interval : Slot}
    {s : Snapshot} (h : g.Reflects inv) (at_ : g.workingInterval = some interval)
    (shown : g.snapshot id = .ok s) : s = readSnapshot inv id interval := by
  unfold snapshot at shown
  split at shown
  · rename_i found
    cases shown
    obtain ⟨e, he, hs⟩ := Option.bind_eq_some_iff.1 found
    obtain ⟨interval', hi, rfl⟩ := h e (List.mem_of_find?_eq_some he) s hs
    have named : e.resource.id = id := by simpa using List.find?_some he
    have same : interval' = interval := Option.some.inj (hi.symm.trans at_)
    rw [named, same]
  · cases shown

/-- A refresh finds the same entries as before, one of them with a new snapshot. -/
theorem find?_refresh (g : Registry) (id : ResourceId) (interval : Slot) (inv : Inventory)
    (other : ResourceId) :
    (g.refresh id interval inv).2.find? other
      = ((g.setWorkingInterval interval).find? other).map fun e =>
      if e.resource.id == id then
        { e with snapshot := some (readSnapshot inv id interval) } else e := by
  -- refreshing keeps the resources, so the search stops at the same place
  have tested : (fun e : Registered => e.resource.id == other)
        ∘ (fun e => if e.resource.id == id then
            { e with snapshot := some (readSnapshot inv id interval) } else e)
      = fun e => e.resource.id == other := by
    funext e
    simp only [Function.comp_apply]
    split <;> rfl
  rw [refresh_eq]
  unfold find?
  rw [List.find?_map, tested]

theorem named_of_find? {g : Registry} {id : ResourceId} {e : Registered}
    (found : g.find? id = some e) :
    e.resource.id = id :=
  eq_of_beq (List.find?_some (p := fun e : Registered => e.resource.id == id) found)

/-- Setting the interval adds and removes nothing. -/
theorem contains_setWorkingInterval (g : Registry) (interval : Slot) (id : ResourceId) :
    (g.setWorkingInterval interval).contains id = g.contains id := by
  rw [Bool.eq_iff_iff, contains_iff_mem_resources, contains_iff_mem_resources,
    resources_setWorkingInterval]

/-- A resource that has been refreshed shows what the inventory holds for the interval. -/
theorem snapshot_refresh {g : Registry} {id : ResourceId} (registered : g.contains id)
    (interval : Slot) (inv : Inventory) :
    (g.refresh id interval inv).2.snapshot id = .ok (readSnapshot inv id interval) := by
  rw [← contains_setWorkingInterval g interval, ← isSome_find?] at registered
  obtain ⟨e, found⟩ := Option.isSome_iff_exists.1 registered
  unfold snapshot
  rw [find?_refresh, found, Option.map_some, if_pos (beq_iff_eq.2 (named_of_find? found))]
  rfl

/-! ## Loading -/

/-- A resource with a new identifier is appended. -/
theorem resources_add {g : Registry} {resource : Resource} (h : g.contains resource.id = false) :
    (g.add resource).2.resources = g.resources ++ [resource] := by
  rw [add, h]
  simp [resources]

/-- Resources with distinct identifiers are all taken, in their order. -/
theorem resources_foldl_add (rs : List Resource) :
    ∀ g : Registry, (g.resources ++ rs).Pairwise (fun a b => a.id ≠ b.id) →
      (rs.foldl (fun g r => (g.add r).2) g).resources = g.resources ++ rs := by
  induction rs with
  | nil => intro g _; simp
  | cons r rs ih =>
    intro g distinct
    -- the identifier is none of those registered so far
    have absent : g.contains r.id = false := by
      rw [← Bool.not_eq_true, contains_iff_mem_resources]
      rintro ⟨r', hr', same⟩
      exact (List.pairwise_append.1 distinct).2.2 r' hr' r List.mem_cons_self same
    have step := resources_add absent
    rw [List.foldl_cons, ih]
    · rw [step, List.append_assoc]
      rfl
    · rw [step, List.append_assoc]
      exact distinct

/-- Loading an inventory without repeated identifiers registers just its resources. -/
theorem resources_load (g : Registry) {inv : Inventory}
    (distinct : (inv.resources.map (·.id)).Nodup) :
    (g.load inv).resources = inv.resources := by
  have apart : inv.resources.Pairwise (fun a b => a.id ≠ b.id) := List.pairwise_map.1 distinct
  exact resources_foldl_add inv.resources { g with entries := [], nextIndex := 0 } apart

/-- An identifier is registered at most once. -/
theorem distinct_add {g : Registry} (distinct : (g.resources.map (·.id)).Nodup)
    (resource : Resource) :
    ((g.add resource).2.resources.map (·.id)).Nodup := by
  cases there : g.contains resource.id with
  | true =>
    rw [add, if_pos there]
    exact distinct
  | false =>
    rw [resources_add there, List.map_append, List.nodup_append]
    refine ⟨distinct, List.pairwise_singleton _ _, ?_⟩
    rintro _ old id new rfl
    rw [List.map_singleton, List.mem_singleton] at new
    obtain ⟨r, registered, same⟩ := List.mem_map.1 old
    -- a resource with the id of the new one would have been found
    have again := (g.contains_iff_mem_resources resource.id).2 ⟨r, registered, same.trans new⟩
    rw [there] at again
    cases again

/-- So it is after loading, even if the inventory has an identifier twice. -/
theorem distinct_load (g : Registry) (inv : Inventory) :
    ((g.load inv).resources.map (·.id)).Nodup := by
  have all (rs : List Resource) : ∀ g : Registry, (g.resources.map (·.id)).Nodup →
      ((rs.foldl (fun g resource => (g.add resource).2) g).resources.map (·.id)).Nodup := by
    induction rs with
    | nil => exact fun _ distinct => distinct
    | cons r rs ih => exact fun g distinct => ih _ (distinct_add distinct r)
  exact all inv.resources _ List.nodup_nil

end Conference.Registry
