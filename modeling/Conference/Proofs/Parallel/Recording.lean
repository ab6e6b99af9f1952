import Conference.Allocation.Recording
import Conference.Proofs.Parallel.Alias

/-!
# Recordings in alike sessions
-/

namespace Conference.RecordingSpec

open Session (FailAlike KeyAlike FoundAlike)

variable {slot : Slot} {G : Ground} {k : Likeness slot} {read : List ResourceId} {s t : Session}
  {allowed : Fault → Prop}

theorem reserve_pairs (spec : RecordingSpec) (id : ResourceId) (h : s.Alike G k read t) :
    (some <$> spec.reserve slot id).Pairs allowed s (some <$> spec.reserve slot id) t
      (FoundAlike G k read) := by
  apply Action.Pairs.map
  unfold reserve
  simp only
  generalize shown : ReservationKind.recordingService id spec.executable.id
    spec.enabled spec.licenses = kind
  obtain ⟨key, made⟩ :=
    h.create ((Reservation.made slot kind).withExecutable spec.executable.id) rfl
  apply Action.Pairs.modifyGet
  rw [key]
  exact ⟨rfl, made⟩

theorem tryUnlicensed_pairs (spec : RecordingSpec) (ids : List ResourceId) :
    ∀ {s t : Session}, s.Alike G k read t →
      (spec.tryUnlicensed slot ids).Pairs allowed s (spec.tryUnlicensed slot ids) t
        (FoundAlike G k read) := by
  induction ids with
  | nil => exact fun h => Action.Pairs.pure ⟨rfl, h⟩
  | cons id ids ih =>
    intro s t h
    unfold tryUnlicensed
    apply Action.Pairs.modifyGet_bind
    -- either both refuse the resource for the same reason, or both take it
    rcases h.checkResource_cases id with ⟨reason, left, right⟩ | ⟨_, s', t', left, right, passed⟩
    · rw [left, right]
      apply Action.Pairs.modify_bind
      exact ih (h.report (Session.reporting_addError reason))
    · rw [left, right]
      exact reserve_pairs spec id (passed.of_subset (List.subset_cons_self _ _))

theorem tryAll_pairs (spec : RecordingSpec) (cs : List Candidate) :
    ∀ {s t : Session}, s.Alike G k read t →
      (spec.tryAll slot cs).Pairs allowed s (spec.tryAll slot cs) t (FoundAlike G k read) := by
  induction cs with
  | nil => exact fun h => Action.Pairs.pure ⟨rfl, h⟩
  | cons c cs ih =>
    intro s t h
    unfold tryAll
    split
    · apply Action.Pairs.modify_bind
      exact ih (h.report (Session.reporting_addError _))
    · exact reserve_pairs spec c.resource h

theorem place_pairs (spec : RecordingSpec) (ids : List ResourceId) (h : s.Alike G k read t) :
    (spec.place slot ids).Pairs allowed s (spec.place slot ids) t (FoundAlike G k read) := by
  unfold place
  split
  · refine Action.Pairs.bind (Survey.candidates_pairs spec.resource .recordingLicenses ids h) ?_
    rintro cs s' cs' t' ⟨rfl, h'⟩
    exact tryAll_pairs spec cs' (h'.of_subset (List.subset_append_right _ _))
  · exact tryUnlicensed_pairs spec ids h

theorem allocate_steady (spec : RecordingSpec) : (spec.allocate slot).Steady allowed G k := by
  intro read s t h
  unfold allocate
  split
  · refine Attempt.Pairs.bind
      (Survey.eligible_pairs spec.resource spec.isUsable spec.capability h) ?_
    rintro ids s' ids' t' ⟨rfl, h'⟩
    have known := h'.of_subset (List.subset_append_right spec.resource.toList read)
    refine Attempt.Pairs.bind (Attempt.Pairs.lift (place_pairs spec ids' known)) ?_
    rintro found u found' v ⟨rfl, placed⟩
    cases found with
    | some key => exact Attempt.Pairs.pure ⟨rfl, placed⟩
    | none => exact Attempt.Pairs.refuse (placed.fail _)
  · exact Attempt.Pairs.refuse (h.fail _)

theorem job_steady (spec : RecordingSpec) : (spec.job slot).Steady allowed G k :=
  ⟨rfl, rfl, allocate_steady spec⟩

end Conference.RecordingSpec
