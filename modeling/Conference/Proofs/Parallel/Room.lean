import Conference.Proofs.Allocation.Room
import Conference.Proofs.Parallel.Alias

/-!
# Rooms in alike sessions

A candidate is tried the same way in both sessions. If one of its aliases fails, both go back to
where they were before the room was made.
-/

namespace Conference.RoomSpec

open Session (FailAlike KeyAlike FoundAlike)

variable {spec : RoomSpec} {slot : Slot} {G : Ground} {k : Likeness slot} {read : List ResourceId}
  {s t : Session} {allowed : Fault → Prop}

theorem addAliases_pairs {base : Session} (start : base.reservations.InProgress) (host : ResourceId)
    {room : Nat} (specs : List AliasSpec) :
    ∀ {s t : Session} {ps : List Nat}, base.Builds s [room :: ps] → s.Alike G k read t →
      (addAliases slot host room specs).Pairs allowed s
        (addAliases slot host (room + k.ahead) specs) t
        (fun _ s' _ t' => s'.Alike G k read t') (FailAlike G k read) := by
  induction specs with
  | nil => exact fun _ h => Attempt.Pairs.pure h
  | cons aliasSpec specs ih =>
    intro s t ps builds h
    unfold addAliases
    refine Attempt.Pairs.bind (Job.runUnder_pairs (aliasSpec.job_steady (some host))
      (aliasSpec.orderly_job (some host) slot) start builds h) ?_
    rintro _ s' _ t' ⟨⟨ps', builds'⟩, h'⟩
    exact ih builds' h'

theorem place_pairs {c : Candidate}
    (maximum : ∃ r, s.resource? c.resource = some r
      ∧ c.maximum = (r.capacity? .roomLicenses).getD 0)
    (mem : c.resource ∈ read) (h : s.Alike G k read t) :
    (spec.place slot c).Pairs allowed s (spec.place slot c) t (FoundAlike G k read) := by
  unfold place
  apply Action.Pairs.modify_bind
  rw [← (s.quiet_openReport (.allocatingResource c.resource)).resource?] at maximum
  replace h := h.report (Session.reporting_openReport (.allocatingResource c.resource))
  generalize s.openReport (.allocatingResource c.resource) = s at maximum h ⊢
  generalize t.openReport (.allocatingResource c.resource) = t at h ⊢
  obtain ⟨used, left, right⟩ := h.used mem .roomLicenses
  refine Action.Pairs.ask_bind left right ?_
  simp only
  split
  · apply Action.Pairs.modify_bind
    apply Action.Pairs.modify_bind
    apply Action.Pairs.pure
    exact ⟨rfl, (h.report (Session.reporting_addError _)).report Session.reporting_closeError⟩
  · rename_i enough
    apply Action.Pairs.get_bind
    apply Action.Pairs.modifyGet_bind
    have room := Session.Builds.create_of_quiet (.refl s)
      (.made slot (.room c.resource spec.participants spec.technologies))
      fun id' slot' usage claim current => by
        cases claim
        exact admits_room maximum (current.used_eq left) enough
    obtain ⟨key, made⟩ := h.create
      (.made slot (.room c.resource spec.participants spec.technologies)) rfl
    rw [key]
    refine Action.Pairs.outcome_bind
      (addAliases_pairs h.progress c.resource spec.aliases room made) ?_ ?_
    · intro _ s' _ t' added
      apply Action.Pairs.modify_bind
      apply Action.Pairs.pure
      exact ⟨rfl, added.report Session.reporting_closeReport⟩
    · intro _ s' _ t' ⟨_, failed⟩
      apply Action.Pairs.modify_bind
      apply Action.Pairs.modify_bind
      apply Action.Pairs.pure
      -- both go back to where they were before the room was made
      exact ⟨rfl, (h.rollback failed).report Session.reporting_closeError⟩

theorem tryAll_pairs (cs : List Candidate) :
    ∀ {s t : Session}, (∀ c ∈ cs, ∃ r, s.resource? c.resource = some r
        ∧ c.maximum = (r.capacity? .roomLicenses).getD 0) →
      (∀ c ∈ cs, c.resource ∈ read) → s.Alike G k read t →
      (spec.tryAll slot cs).Pairs allowed s (spec.tryAll slot cs) t (FoundAlike G k read) := by
  induction cs with
  | nil => exact fun _ _ h => Action.Pairs.pure ⟨rfl, h⟩
  | cons c cs ih =>
    intro s t maxima among h
    unfold tryAll
    refine Action.Pairs.bind
      (place_pairs (maxima c List.mem_cons_self) (among c List.mem_cons_self) h) ?_
    rintro found s' found' t' ⟨rfl, h'⟩
    cases found with
    | some key => exact Action.Pairs.pure ⟨rfl, h'⟩
    | none =>
      refine ih (fun d mem => ?_) (fun d mem => among d (List.mem_cons_of_mem _ mem)) h'
      -- placing registers nothing, so the maxima are still right for the next candidates
      rw [h.left.resource?_eq h'.left]
      exact maxima d (List.mem_cons_of_mem _ mem)

theorem allocate_steady (spec : RoomSpec) : (spec.allocate slot).Steady allowed G k := by
  intro read s t h
  unfold allocate
  refine Attempt.Pairs.bind (Survey.eligible_pairs spec.resource spec.isUsable spec.capability h) ?_
  rintro ids s' ids' t' ⟨rfl, h'⟩
  have subset (rs : List ResourceId) : read ⊆ rs ++ (spec.resource.toList ++ read) := by
    intro r mem
    simp [mem]
  refine Attempt.Pairs.bind (Attempt.Pairs.lift
    ((Survey.candidates_pairs spec.resource .roomLicenses ids' h').with_left
      (Survey.candidates_ensures spec.resource slot .roomLicenses ids' s'))) ?_
  rintro cs s'' cs' t'' ⟨⟨quiet, accurate⟩, rfl, h''⟩
  -- the maxima of the candidates are those of the resources, in both sessions
  have maxima : ∀ c ∈ cs', ∃ r, s''.resource? c.resource = some r
      ∧ c.maximum = (r.capacity? .roomLicenses).getD 0 := by
    intro c mem
    rw [quiet.resource?]
    exact (accurate c mem).maximum
  have among : ∀ c ∈ cs', c.resource ∈ cs'.map (·.resource) ++ (spec.resource.toList ++ read) :=
    fun c mem => List.mem_append_left _ (List.mem_map_of_mem mem)
  refine Attempt.Pairs.bind (Attempt.Pairs.lift (tryAll_pairs cs' maxima among h'')) ?_
  rintro found u found' v ⟨rfl, found_alike⟩
  cases found with
  | some key => exact Attempt.Pairs.pure ⟨rfl, found_alike.of_subset (subset _)⟩
  | none => exact Attempt.Pairs.refuse (FailAlike.of_subset (found_alike.fail _) (subset _))

theorem job_steady (spec : RoomSpec) : (spec.job slot).Steady allowed G k :=
  ⟨rfl, rfl, allocate_steady spec⟩

end Conference.RoomSpec
