import Conference.Allocation.Recording
import Conference.Proofs.Allocation.Survey
import Conference.Proofs.Job

/-!
# Recordings are orderly

An enabled service takes its licenses from a candidate that has as many left. A disabled one claims
nothing, so it may go on any resource.
-/

namespace Conference.RecordingSpec

variable {spec : RecordingSpec} {slot : Slot}

/-- Only an enabled service claims licenses. -/
theorem claim?_made (spec : RecordingSpec) (slot : Slot) (id : ResourceId) :
    ((Reservation.made slot (.recordingService id spec.executable.id spec.enabled spec.licenses)
        ).withExecutable spec.executable.id).claim?
      = if spec.enabled then some (id, slot, .recordingLicenses spec.licenses) else none := by
  unfold Reservation.claim? Reservation.withExecutable Reservation.made
  simp only [ReservationKind.claim?]
  split <;> rfl

theorem admits_licenses {s : Session} {c : Candidate} (current : s.Current)
    (accurate : c.Accurate s slot .recordingLicenses) (enough : spec.licenses ≤ c.available) :
    s.Admits c.resource slot (.recordingLicenses spec.licenses) where
  capacity := by
    obtain ⟨r, found, maximum⟩ := accurate.maximum
    obtain ⟨below, rest⟩ := accurate.available current
    refine ⟨r, found, Or.inr ?_⟩
    show s.load c.resource slot .recordingLicenses + spec.licenses
      ≤ (r.capacity? .recordingLicenses).getD 0
    rw [← maximum]
    omega
  free := fun _ h => nomatch h

/-- A node for the service is made if what it claims is admitted. -/
theorem reserve_places {s t : Session} {id : ResourceId} (quiet : s.Quiet t)
    (admitted : spec.enabled → s.Current → s.Admits id slot (.recordingLicenses spec.licenses)) :
    (some <$> spec.reserve slot id).Ensures t s.Places := by
  apply Action.Ensures.map
  unfold reserve
  refine Action.Ensures.modifyGet ⟨[], .create_of_quiet quiet _ ?_⟩
  intro id' slot' usage claim current
  rw [claim?_made] at claim
  split at claim
  · rename_i enabled
    cases claim
    exact admitted enabled current
  · cases claim

theorem tryUnlicensed_places (disabled : ¬ spec.enabled) {s : Session} (ids : List ResourceId) :
    ∀ t, s.Quiet t → (spec.tryUnlicensed slot ids).Ensures t s.Places := by
  induction ids with
  | nil =>
    intro t quiet
    exact Action.Ensures.pure (.of_quiet quiet)
  | cons id ids ih =>
    intro t quiet
    unfold tryUnlicensed
    apply Action.Ensures.modifyGet_bind
    have checked := quiet.trans (t.quiet_checkResource id slot)
    split
    · exact reserve_places checked fun enabled => absurd enabled disabled
    · apply Action.Ensures.modify_bind
      exact ih _ (checked.trans (Session.quiet_addError _ _))

theorem tryAll_places {s : Session} (cs : List Candidate) :
    ∀ t, s.Quiet t → (∀ c ∈ cs, c.Accurate s slot .recordingLicenses) →
      (spec.tryAll slot cs).Ensures t s.Places := by
  induction cs with
  | nil =>
    intro t quiet _
    exact Action.Ensures.pure (.of_quiet quiet)
  | cons c cs ih =>
    intro t quiet accurate
    have this := accurate c List.mem_cons_self
    -- the survey was made once, for all candidates, at the session `s`
    have others (d : Candidate) (hd : d ∈ cs) := accurate d (List.mem_cons_of_mem _ hd)
    unfold tryAll
    split
    · apply Action.Ensures.modify_bind
      exact ih _ (quiet.trans (t.quiet_addError _)) others
    · rename_i enough
      -- the first candidate with enough licenses is taken
      refine reserve_places quiet fun _ current => ?_
      exact admits_licenses current this (Nat.le_of_not_lt enough)

theorem place_places (spec : RecordingSpec) (slot : Slot) (ids : List ResourceId) (s : Session) :
    (spec.place slot ids).Ensures s s.Places := by
  unfold place
  split
  · refine Action.Ensures.bind (Survey.candidates_ensures _ slot .recordingLicenses ids s) ?_
    rintro cs t ⟨quiet, accurate⟩
    exact tryAll_places cs t quiet accurate
  · rename_i disabled
    exact tryUnlicensed_places disabled ids s (.refl s)

theorem allocate_buildsTree (spec : RecordingSpec) (slot : Slot) (s : Session) :
    (spec.allocate slot).BuildsTree s := by
  unfold allocate
  split
  · refine Attempt.Ensures.bind (Survey.eligible_ensures _ slot _ _ s) ?_
    intro ids t quiet
    refine Attempt.Ensures.bind (Attempt.Ensures.lift (place_places spec slot ids t)) ?_
    intro key u placed
    have whole := placed.after (.of_quiet quiet)
    cases key with
    | some key => exact Attempt.Ensures.pure whole
    | none =>
      apply Attempt.Ensures.refuse
      exact Session.Leaves.after (.of_quiet (u.quiet_fail _)) whole
  · exact Attempt.Ensures.refuse (.of_quiet (s.quiet_fail _))

theorem orderly_job (spec : RecordingSpec) (slot : Slot) : (spec.job slot).Orderly :=
  fun s => spec.allocate_buildsTree slot s

end Conference.RecordingSpec
