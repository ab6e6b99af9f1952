import Conference.Proofs.Scheduler.Feasible
import Conference.Proofs.Scheduler.Order
import Conference.Proofs.Timeline.Release
import Conference.Proofs.Value.Free

/-!
# Requests after a release

Where fewer allocations are in force a plain request is granted if it was before, unless the peak of
what is left rises. It may: an allocation of positive length cuts the query where it starts and
ends, and with the cut gone, two allocations for points on the two sides of it count together.
-/

namespace Conference

/-- The dimension of which a plain request needs a certain amount. -/
def Specification.counted? : Specification → Option Dimension
  | .room _ => some .roomLicenses
  | .recording spec => if spec.enabled then some .recordingLicenses else none
  | .dialAlias _ => some .values
  | .resource _ | .compartment _ => none

namespace Ground

variable {G : Ground} {l m : Ledger} {slot : Slot} {id : ResourceId} {dimension : Dimension}

variable (G dimension) in
/-- With fewer bookings there is less in use. -/
theorem usage_subperm (fewer : m.booked id ≤ l.booked id) :
    ((G.usage m id dimension).entries.map fun e => (e.item.usage, e.slot)).Subperm
      ((G.usage l id dimension).entries.map fun e => (e.item.usage, e.slot)) := by
  have tentative (k : Ledger) : (((k.appliedOn id).filter (·.usage.dimension == dimension)).map
        fun a => (a.usage, a.slot))
      = ((((k.appliedOn id).map fun a => (a.slot, a.usage)).filter (·.2.dimension == dimension)).map
        fun p => (p.2, p.1)) := by
    rw [List.filter_map, List.map_map]
    rfl
  have less : ((m.appliedOn id).map fun a => (a.slot, a.usage)).Subperm
      ((l.appliedOn id).map fun a => (a.slot, a.usage)) := fewer
  -- the committed allocations are those of the ground, on both sides
  unfold usage Registry.usageOf
  simp only [List.map_append, List.map_map, Function.comp_def]
  rw [tentative, tentative]
  exact (List.Subperm.refl _).append (subperm_map _ (less.filter _))

theorem values_subset (fewer : m.booked id ≤ l.booked id) :
    G.values m id slot ⊆ G.values l id slot := by
  intro value mem
  unfold values at mem ⊢
  obtain ⟨a, overlaps, held⟩ := List.mem_filterMap.1 mem
  have still := Timeline.mem_overlapping_of_subperm (G.usage_subperm .values fewer)
    (List.mem_map_of_mem overlaps)
  obtain ⟨b, overlaps', same⟩ := List.mem_map.1 still
  exact List.mem_filterMap.2 ⟨b, overlaps', by rw [same]; exact held⟩

/-- The load does not rise unless points come together. -/
theorem load_le (fewer : m.booked id ≤ l.booked id)
    (parts : (G.usage m id dimension).PartsLike (G.usage l id dimension) slot) :
    G.load m id slot dimension ≤ G.load l id slot dimension := by
  refine Timeline.peak_le_of_subperm ?_ parts
  have less :=
    subperm_map (fun p : Usage × Slot => (p.1.units, p.2)) (G.usage_subperm dimension fewer)
  rw [List.map_map, List.map_map] at less
  exact less

/-- A resource that is not in use at all stays so. -/
theorem load_exclusive_eq_zero (fewer : m.booked id ≤ l.booked id)
    (free : G.load l id slot .exclusive = 0) : G.load m id slot .exclusive = 0 := by
  unfold load at free ⊢
  rw [Timeline.peak_eq_zero_iff (Registry.units_pos_of_exclusive _ _ _)] at free ⊢
  intro e mem meet
  have still : (e.item.usage, e.slot) ∈ (G.usage l id .exclusive).entries.map fun e =>
      (e.item.usage, e.slot) :=
    (G.usage_subperm .exclusive fewer).subset (List.mem_map_of_mem mem)
  obtain ⟨e', mem', same⟩ := List.mem_map.1 still
  refine free e' mem' ?_
  rw [(Prod.mk.inj same).2]
  exact meet

/-- A candidate has no less left when the load does not rise. -/
theorem candidate?_of_load_le (less : G.load m id slot dimension ≤ G.load l id slot dimension)
    {c : Candidate} (found : G.candidate? l slot dimension id = some c) :
    ∃ c', G.candidate? m slot dimension id = some c' ∧ c.available ≤ c'.available := by
  obtain ⟨r, allowed, spare, rfl⟩ := candidate?_eq_some.1 found
  refine ⟨_, candidate?_eq_some.2 ⟨r, allowed, by omega, rfl⟩, ?_⟩
  show _ - _ ≤ _ - _
  omega

theorem serves_of_booked_le {spec : AliasSpec} (fewer : m.booked id ≤ l.booked id)
    (serves : spec.Serves G l slot id) : spec.Serves G m slot id := by
  obtain ⟨provider, provides, chosen⟩ := serves
  have subset : G.values m id slot ⊆ G.values l id slot := values_subset fewer
  refine ⟨provider, provides, ?_⟩
  unfold AliasSpec.choice? at chosen ⊢
  cases asked : spec.value with
  | none =>
    rw [asked] at chosen
    exact Pool.isSome_firstFree?_of_subset subset chosen
  | some value =>
    rw [asked] at chosen
    simp only at chosen ⊢
    split at chosen
    · rename_i fits
      simp only [Bool.and_eq_true, Bool.not_eq_true', List.contains_eq_mem,
        decide_eq_false_iff_not] at fits
      -- a value that was free is free when less is booked
      have free : value ∉ G.values m id slot := fun taken => fits.2 (subset taken)
      simp [fits.1, free]
    · cases chosen

/-- A candidate that had enough left still has, unless points come together on its resource, which
is registered. -/
theorem exists_candidate_of_booked_le (fewer : m.booked id ≤ l.booked id)
    (parts : ∀ p ∈ G.roll.1, (G.usage m p.1.id dimension).PartsLike
      (G.usage l p.1.id dimension) slot)
    {n : Nat} (found : ∃ c, G.candidate? l slot dimension id = some c ∧ n ≤ c.available) :
    ∃ c, G.candidate? m slot dimension id = some c ∧ n ≤ c.available := by
  obtain ⟨c, made, fits⟩ := found
  obtain ⟨r, allowed, -⟩ := candidate?_eq_some.1 made
  obtain ⟨p, registered, rfl⟩ := Option.map_eq_some_iff.1 (resource?_of_allowed? allowed)
  have named : p.1.id = id :=
    eq_of_beq (List.find?_some (p := fun p : Resource × Nat => p.1.id == id) registered)
  have parted := parts p (List.mem_of_find?_eq_some registered)
  rw [named] at parted
  obtain ⟨c', made', more⟩ := candidate?_of_load_le (load_le fewer parted) made
  exact ⟨c', made', Nat.le_trans fits more⟩

/-- What is feasible stays so with fewer bookings, unless points come together in the dimension that
counts. -/
theorem feasible_of_booked_le {spec : Specification} (fewer : ∀ id, m.booked id ≤ l.booked id)
    (parts : ∀ dimension, spec.counted? = some dimension → ∀ p ∈ G.roll.1,
      (G.usage m p.1.id dimension).PartsLike (G.usage l p.1.id dimension) slot)
    (feasible : G.Feasible l slot spec) : G.Feasible m slot spec := by
  cases spec with
  | resource id => exact ⟨feasible.1, load_exclusive_eq_zero (fewer id) feasible.2⟩
  | room spec =>
    obtain ⟨id, eligible, found⟩ := feasible
    exact ⟨id, eligible, exists_candidate_of_booked_le (fewer id) (parts _ rfl) found⟩
  | recording spec =>
    obtain ⟨within, id, eligible, found⟩ := feasible
    refine ⟨within, id, eligible, ?_⟩
    -- which dimension is asked for depends on the executable being enabled
    split at found
    · rename_i enabled
      rw [if_pos enabled]
      exact exists_candidate_of_booked_le (fewer id) (parts _ (if_pos enabled)) found
    · rename_i disabled
      rw [if_neg disabled]
      exact found
  | dialAlias spec =>
    obtain ⟨id, eligible, found, serves⟩ := feasible
    refine ⟨id, eligible, ?_, serves_of_booked_le (fewer id) serves⟩
    obtain ⟨c, made⟩ := Option.isSome_iff_exists.1 found
    obtain ⟨c', made', -⟩ :=
      exists_candidate_of_booked_le (fewer id) (parts _ rfl) ⟨c, made, Nat.zero_le _⟩
    exact Option.isSome_iff_exists.2 ⟨c', made'⟩
  | compartment participants => exact feasible

end Ground

namespace Scheduler

variable {s : Scheduler} {spec : Specification} {slot : Slot} {l m : Ledger}

/-- A resource, a room without aliases, a recording or an alias that is granted on one ledger is
granted on another one of the same working interval, of which the bookings are some of those of the
first, if nothing that was parted comes together by that: where an allocation of positive length
starts or ends between two points within the slot for which a registered resource is allocated in
the counted dimension, one that is left does so as well. -/
theorem grants_of_booked_le (plain : spec.IsPlain)
    (interval : m.workingInterval = l.workingInterval) (fewer : ∀ id, m.booked id ≤ l.booked id)
    (parts : ∀ dimension, spec.counted? = some dimension → ∀ r ∈ s.registry.resources,
      ((s.session m).ground.usage m r.id dimension).PartsLike
        ((s.session l).ground.usage l r.id dimension) slot)
    (grants : s.Grants spec slot l) : s.Grants spec slot m := by
  -- the ground does not depend on what is booked
  have same : (s.session m).ground = (s.session l).ground := by
    unfold session
    rw [interval]
    unfold Session.ground Session.start
    simp only [interval]
  rw [grants_iff_feasible plain] at grants ⊢
  rw [same] at parts ⊢
  have registered : (s.session l).ground.roll.1.map (·.1) = s.registry.resources := by
    rw [← Registry.resources_setWorkingInterval s.registry l.workingInterval, Registry.resources]
    exact List.map_map
  refine ⟨?_, Ground.feasible_of_booked_le fewer (fun d counted p mem => ?_) grants.2⟩
  · rw [interval]
    exact grants.1
  · refine parts d counted p.1 ?_
    rw [← registered]
    exact List.mem_map_of_mem mem

/-! ## Points that come together -/

/-- A room in the hall, for some participants. -/
def hallRoom (participants : Nat) : Specification :=
  .room ⟨participants, .empty, some Sample.hall.id, []⟩

/-- Two points, and a slot between them that keeps them apart. -/
def hallRequests : List Request :=
  [⟨⟨"early"⟩, .point 2, hallRoom 2⟩, ⟨⟨"late"⟩, .point 6, hallRoom 2⟩,
    ⟨⟨"between"⟩, ⟨4, 5, by decide⟩, hallRoom 1⟩]

/-- A room that is granted beside three others is refused beside two of them: the third one had kept
the points of these apart. -/
theorem refused_after_release :
    let interval : Slot := ⟨0, 100, by decide⟩
    ∃ outcomes first outcomes' second,
      Pass.run (Pass.opened (.ofInventory Sample.branches) "first" interval) hallRequests
        = .ok (outcomes, first)
        ∧ Pass.run (Pass.opened first.scheduler "second" interval) (hallRequests.take 2)
          = .ok (outcomes', second)
        ∧ second.ledger.workingInterval = first.ledger.workingInterval
        ∧ (∀ id, second.ledger.booked id ≤ first.ledger.booked id)
        ∧ second.scheduler.Grants (hallRoom 1) ⟨0, 10, by decide⟩ first.ledger
        ∧ ¬ second.scheduler.Grants (hallRoom 1) ⟨0, 10, by decide⟩ second.ledger := by
  intro interval
  -- both passes are evaluated at once, the rest takes the result apart
  have runs : ((Pass.run (Pass.opened (.ofInventory Sample.branches) "first" interval)
      hallRequests).toOption.any fun p =>
        (Pass.run (Pass.opened p.2.scheduler "second" interval)
          (hallRequests.take 2)).toOption.any fun q =>
          q.2.ledger.workingInterval = p.2.ledger.workingInterval
            ∧ q.2.ledger.applied.map Allocation.claim
              = (p.2.ledger.applied.map Allocation.claim).take 2
            ∧ q.2.scheduler.Grants (hallRoom 1) ⟨0, 10, by decide⟩ p.2.ledger
            ∧ ¬ q.2.scheduler.Grants (hallRoom 1) ⟨0, 10, by decide⟩ q.2.ledger) = true := by
    decide +kernel
  cases run :
      Pass.run (Pass.opened (.ofInventory Sample.branches) "first" interval) hallRequests with
  | error fault =>
    rw [run] at runs
    cases runs
  | ok p =>
    rw [run, Except.toOption, Option.any_some] at runs
    cases run' : Pass.run (Pass.opened p.2.scheduler "second" interval) (hallRequests.take 2) with
    | error fault =>
      rw [run'] at runs
      cases runs
    | ok q =>
      rw [run', Except.toOption, Option.any_some, decide_eq_true_eq] at runs
      obtain ⟨same, claims, granted, refused⟩ := runs
      refine ⟨p.1, p.2, q.1, q.2, rfl, run', same, fun id => ?_, granted, refused⟩
      rw [Ledger.booked_eq, Ledger.booked_eq, claims]
      exact Multiset.coe_le.2 (((List.take_sublist 2 _).filter _).map _).subperm

/-- Where two rooms keep the points apart, one of them may go. -/
theorem granted_after_release :
    let parted := (((Ledger.empty "pass" ⟨0, 100, by decide⟩).apply Sample.hall.id (.point 2)
      (.roomLicenses 1)).apply Sample.hall.id (.point 6) (.roomLicenses 2)).apply Sample.hall.id
      ⟨4, 5, by decide⟩ (.roomLicenses 1)
    let full := parted.apply Sample.hall.id ⟨3, 5, by decide⟩ (.roomLicenses 1)
    let s := Scheduler.ofInventory Sample.branches
    s.Grants (hallRoom 1) ⟨0, 10, by decide⟩ full ∧ (∀ id, parted.booked id ≤ full.booked id)
      ∧ s.Grants (hallRoom 1) ⟨0, 10, by decide⟩ parted := by
  intro parted full s
  have granted : s.Grants (hallRoom 1) ⟨0, 10, by decide⟩ full := by decide +kernel
  have fewer (id : ResourceId) : parted.booked id ≤ full.booked id := by
    rw [Ledger.booked_eq, Ledger.booked_eq, Ledger.applied_apply parted, List.map_append]
    exact Multiset.coe_le.2 (((List.sublist_append_left _ _).filter _).map _).subperm
  -- where the points lie matters for how a day is parted, so this has to be the same
  have parts : ∀ r ∈ s.registry.resources,
      ((s.session parted).ground.usage parted r.id .roomLicenses).PartsLike
        ((s.session full).ground.usage full r.id .roomLicenses) ⟨0, 10, by decide⟩ := by
          decide +kernel
  refine ⟨granted, fewer, grants_of_booked_le (l := full) rfl rfl fewer ?_ granted⟩
  rintro _ ⟨⟩
  exact parts

end Scheduler

end Conference
