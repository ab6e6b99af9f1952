import Conference.Allocation.Survey
import Conference.Proofs.Session.Builds
import Conference.Proofs.Session.Ensures

/-!
# Surveys are accurate

A survey is quiet, and what it finds out about a candidate is true: the maximum is the capacity of
the registered resource, and the rest of it is in use.
-/

namespace Conference

/-- What a candidate says about its resource, for a slot, is true of a session. -/
structure Candidate.Accurate (c : Candidate) (s : Session) (slot : Slot) (dimension : Dimension) :
    Prop where
  maximum : ∃ r, s.resource? c.resource = some r ∧ c.maximum = (r.capacity? dimension).getD 0
  available : s.Current →
    s.load c.resource slot dimension < c.maximum
      ∧ c.available = c.maximum - s.load c.resource slot dimension

/-- What is found out after quiet steps was true before them. -/
theorem Candidate.Accurate.before {c : Candidate} {s t : Session} {slot : Slot}
    {dimension : Dimension} (h : c.Accurate t slot dimension) (quiet : s.Quiet t) :
    c.Accurate s slot dimension where
  maximum := by
    rw [← quiet.resource?]
    exact h.maximum
  available := by
    intro current
    rw [← quiet.load]
    exact h.available (quiet.current current)

theorem Candidate.make_eq_ok {id : ResourceId} {index maximum used : Nat} {c : Candidate}
    (h : Candidate.make id index maximum used = .ok c) :
    c = ⟨id, index, maximum, maximum - used⟩ := by
  unfold make at h
  split at h
  · cases h
  · exact (Except.ok.inj h).symm

namespace Survey

variable {s : Session} {slot : Slot} {dimension : Dimension}

theorem eligible_ensures (given : Option ResourceId) (slot : Slot) (usable : Resource → Bool)
    (capability : String) (s : Session) :
    (eligible given slot usable capability).Ensures s (fun _ t => s.Quiet t) fun _ t =>
      s.Leaves t := by
  unfold eligible
  cases given with
  | some id =>
    apply Attempt.Ensures.modifyGet_bind
    -- the snapshot may be read anew for the check
    have checked := s.quiet_checkResource id slot
    split
    · exact Attempt.Ensures.refuse (.of_quiet (checked.trans (Session.quiet_fail _ _)))
    · split
      · exact Attempt.Ensures.pure checked
      · exact Attempt.Ensures.refuse (.of_quiet (checked.trans (Session.quiet_fail _ _)))
  | none =>
    apply Attempt.Ensures.get_bind
    split
    · exact Attempt.Ensures.refuse (.of_quiet (s.quiet_fail _))
    · exact Attempt.Ensures.pure (.refl s)

theorem examine_ensures (slot : Slot) (dimension : Dimension) (id : ResourceId) (s : Session) :
    (examine slot dimension id).Ensures s fun found t =>
      s.Quiet t ∧ ∀ c ∈ found.toList, c.Accurate s slot dimension := by
  unfold examine
  apply Action.Ensures.modify_bind
  apply Action.Ensures.modifyGet_bind
  have opened := s.quiet_openReport (.checkingResource id)
  have checked := opened.trans (Session.quiet_checkResource _ id slot)
  split
  · apply Action.Ensures.modify_bind
    apply Action.Ensures.modify_bind
    refine Action.Ensures.pure ⟨?_, fun c hc => by cases hc⟩
    exact (checked.trans (Session.quiet_addError _ _)).trans (Session.quiet_closeError _)
  · rename_i resource passed
    simp only
    apply Action.Ensures.ask_bind
    intro used known
    split
    · apply Action.Ensures.modify_bind
      apply Action.Ensures.modify_bind
      refine Action.Ensures.pure ⟨?_, fun c hc => by cases hc⟩
      exact (checked.trans (Session.quiet_addError _ _)).trans (Session.quiet_closeError _)
    · rename_i free
      apply Action.Ensures.get_bind
      apply Action.Ensures.ask_bind
      intro candidate made
      apply Action.Ensures.modify_bind
      apply Action.Ensures.modify_bind
      refine Action.Ensures.pure ⟨?_, ?_⟩
      · exact (checked.trans (Session.quiet_addReport _ _)).trans (Session.quiet_closeReport _)
      · intro c hc
        rw [Option.mem_toList] at hc
        cases hc
        rw [Candidate.make_eq_ok made]
        -- what is in use was asked for after the snapshot had been read
        refine Candidate.Accurate.before ⟨?_, ?_⟩ checked
        · refine ⟨resource, ?_, rfl⟩
          rw [checked.resource?, ← opened.resource?]
          exact Session.resource?_of_checkResource passed
        · intro current
          rw [← current.used_eq known]
          exact ⟨Nat.lt_of_not_le free, rfl⟩

theorem examineAll_ensures (slot : Slot) (dimension : Dimension) (ids : List ResourceId) :
    ∀ s : Session, (examineAll slot dimension ids).Ensures s fun cs t =>
      s.Quiet t ∧ ∀ c ∈ cs, c.Accurate s slot dimension := by
  induction ids with
  | nil =>
    intro s
    refine Action.Ensures.pure ⟨.refl s, fun c hc => ?_⟩
    cases hc
  | cons id ids ih =>
    intro s
    refine Action.Ensures.bind (examine_ensures slot dimension id s) ?_
    rintro found t ⟨quiet, first⟩
    refine Action.Ensures.bind (ih t) ?_
    rintro others u ⟨quiet', rest⟩
    refine Action.Ensures.pure ⟨quiet.trans quiet', ?_⟩
    intro c hc
    rcases List.mem_append.1 hc with h | h
    · exact first c h
    · exact (rest c h).before quiet

theorem available_ensures (slot : Slot) (dimension : Dimension) (ids : List ResourceId)
    (s : Session) :
    (available slot dimension ids).Ensures s fun cs t =>
      s.Quiet t ∧ ∀ c ∈ cs, c.Accurate s slot dimension := by
  unfold available
  apply Action.Ensures.modify_bind
  have opened := s.quiet_openReport .findingAvailableResource
  refine Action.Ensures.bind (examineAll_ensures slot dimension ids _) ?_
  rintro cs t ⟨quiet, accurate⟩
  apply Action.Ensures.modify_bind
  refine Action.Ensures.pure ⟨?_, fun c hc => (accurate c hc).before opened⟩
  exact (opened.trans quiet).trans t.quiet_closeReport

theorem candidates_ensures (given : Option ResourceId) (slot : Slot) (dimension : Dimension)
    (ids : List ResourceId) (s : Session) :
    (candidates given slot dimension ids).Ensures s fun cs t =>
      s.Quiet t ∧ ∀ c ∈ cs, c.Accurate s slot dimension := by
  unfold candidates
  refine Action.Ensures.bind (available_ensures slot dimension ids s) ?_
  rintro cs t ⟨quiet, accurate⟩
  split
  · unfold rank
    apply Action.Ensures.modify_bind
    refine Action.Ensures.pure ⟨quiet.trans (t.quiet_addReport _), ?_⟩
    intro c hc
    exact accurate c ((Candidate.rank_perm cs).mem_iff.1 hc)
  · exact Action.Ensures.pure ⟨quiet, accurate⟩

end Survey

end Conference
