import Conference.Allocation.Alias
import Conference.Proofs.Allocation.Survey
import Conference.Proofs.Job
import Conference.Proofs.Value.Free

/-!
# Aliases are orderly

The value that is picked for an alias is not among those handed out during the slot, and its
provider has a unit left. The node of the value is made a child of that of the aliases.
-/

namespace Conference.AliasSpec

variable {spec : AliasSpec} {slot : Slot}

/-- Only a value that is not handed out is picked. -/
theorem pickValue_ensures (spec : AliasSpec) (slot : Slot) (id : ResourceId)
    (provider : AliasProvider) (s : Session) :
    (spec.pickValue slot id provider).Ensures s fun picked t =>
      s.Quiet t ∧ ∀ value ∈ picked.toList, s.Current → s.Free id slot value := by
  unfold pickValue
  apply Action.Ensures.ask_bind
  intro used known
  have nothing (report : Report) : s.Quiet (s.addError report)
      ∧ ∀ value ∈ (none : Option String).toList, s.Current → s.Free id slot value :=
    ⟨s.quiet_addError report, fun _ h => nomatch h⟩
  have unused {value : String} (h : value ∉ used) :
      ∀ v ∈ (some value).toList, s.Current → s.Free id slot v := by
    intro v hv current
    rw [Option.mem_toList] at hv
    cases hv
    rw [current.allocatedValues_eq known] at h
    exact h
  split
  · -- a value that is asked for
    split
    · apply Action.Ensures.modify_bind
      exact Action.Ensures.pure (nothing _)
    · split
      · apply Action.Ensures.modify_bind
        exact Action.Ensures.pure (nothing _)
      · rename_i free
        refine Action.Ensures.pure ⟨.refl s, unused ?_⟩
        simpa using free
  · -- the first free one
    split
    · rename_i value found
      refine Action.Ensures.pure ⟨.refl s, unused ?_⟩
      exact Pool.firstFree?_not_mem found
    · apply Action.Ensures.modify_bind
      exact Action.Ensures.pure (nothing _)

theorem admits_value {s : Session} {c : Candidate} {value : String} (current : s.Current)
    (accurate : c.Accurate s slot .values)
    (free : s.Free c.resource slot value) :
    s.Admits c.resource slot (.value value) where
  capacity := by
    obtain ⟨r, found, maximum⟩ := accurate.maximum
    obtain ⟨below, -⟩ := accurate.available current
    refine ⟨r, found, Or.inr ?_⟩
    show s.load c.resource slot .values + 1 ≤ (r.capacity? .values).getD 0
    rw [← maximum]
    omega
  free := by
    intro v hv
    cases hv
    exact free

/-- The two nodes of an alias make one tree. -/
theorem reserve_places {s t : Session} {id : ResourceId} {provider : AliasProvider} {value : String}
    (quiet : s.Quiet t) (admitted : s.Current → s.Admits id slot (.value value)) :
    (some <$> spec.reserve slot id provider value).Ensures t s.Places := by
  apply Action.Ensures.map
  unfold reserve
  apply Action.Ensures.modifyGet_bind
  apply Action.Ensures.modifyGet_bind
  apply Action.Ensures.change_bind
  intro u attached
  apply Action.Ensures.pure
  -- the aliases themselves claim nothing, so the value is admitted as before
  have first :=
    Session.Builds.create_of_quiet quiet
      (.made slot (.aliases id ((provider.matching spec.types spec.technologies).map
        (·.generate value)))) fun _ _ _ claim => nomatch claim
  have second := first.create (.made slot (.value id value)) fun id' slot' usage claim current => by
    cases claim
    refine Session.Admits.congr ?_ ?_ ?_ ((admitted current).of_quiet quiet)
    · rfl
    · rfl
    · rfl
  exact ⟨_, second.attach attached⟩

theorem tryAll_places {s : Session} (cs : List Candidate) :
    ∀ t, s.Quiet t → (∀ c ∈ cs, c.Accurate s slot .values) →
      (spec.tryAll slot cs).Ensures t s.Places := by
  induction cs with
  | nil =>
    intro t quiet _
    exact Action.Ensures.pure (.of_quiet quiet)
  | cons c cs ih =>
    intro t quiet accurate
    have this := accurate c List.mem_cons_self
    have others (d : Candidate) (hd : d ∈ cs) := accurate d (List.mem_cons_of_mem _ hd)
    unfold tryAll
    apply Action.Ensures.get_bind
    split
    · -- a resource that is no provider is passed over
      exact ih t quiet others
    · rename_i provider found
      apply Action.Ensures.modify_bind
      have opened := quiet.trans (t.quiet_openReport (.allocatingValue c.resource))
      refine Action.Ensures.bind (pickValue_ensures spec slot c.resource provider _) ?_
      rintro picked u ⟨asked, free⟩
      split
      · apply Action.Ensures.modify_bind
        exact ih _ ((opened.trans asked).trans u.quiet_closeError) others
      · rename_i value
        apply Action.Ensures.modify_bind
        refine reserve_places ((opened.trans asked).trans u.quiet_closeReport) fun current => ?_
        -- the value has been free when it was picked, and nothing has been claimed since
        refine admits_value current this ?_
        have unused := free value (Option.mem_toList.2 rfl) (opened.current current)
        unfold Session.Free at unused
        rw [opened.inventory, opened.ledger] at unused
        exact unused

theorem allocate_buildsTree (spec : AliasSpec) (target : Option ResourceId) (slot : Slot)
    (s : Session) : (spec.allocate target slot).BuildsTree s := by
  unfold allocate
  refine Attempt.Ensures.bind (Survey.eligible_ensures _ slot _ _ s) ?_
  intro ids t quiet
  refine Attempt.Ensures.bind
    (Attempt.Ensures.lift (Survey.candidates_ensures _ slot .values ids t)) ?_
  rintro cs u ⟨surveyed, accurate⟩
  refine Attempt.Ensures.bind (Attempt.Ensures.lift (tryAll_places cs u surveyed accurate)) ?_
  intro key v placed
  -- the survey before has built nothing
  have whole := placed.after (.of_quiet quiet)
  cases key with
  | some key => exact Attempt.Ensures.pure whole
  | none =>
    apply Attempt.Ensures.get_bind
    apply Attempt.Ensures.refuse
    exact Session.Leaves.after (.of_quiet (v.quiet_fail _)) whole

theorem orderly_job (spec : AliasSpec) (target : Option ResourceId) (slot : Slot) :
    (spec.job target slot).Orderly :=
  fun s => spec.allocate_buildsTree target slot s

end Conference.AliasSpec
