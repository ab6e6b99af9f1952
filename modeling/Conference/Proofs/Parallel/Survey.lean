import Conference.Allocation.Survey
import Conference.Proofs.Parallel.Alike
import Conference.Proofs.Parallel.Pairs

/-!
# Alike sessions survey alike

Which resources come into question is read off the ground, and what is in use of them is the same in
ledgers that are alike. So a survey finds the same candidates, and afterwards their snapshots are
read.
-/

namespace Conference

namespace Session

variable {slot : Slot}

/-- Both runs fail alike. -/
def FailAlike (G : Ground) (k : Likeness slot) (read : List ResourceId) (e : Failure) (s : Session)
    (e' : Failure) (t : Session) : Prop :=
  (k.Reports → e' = e) ∧ s.Alike G k read t

theorem FailAlike.of_subset {G : Ground} {k : Likeness slot} {read read' : List ResourceId}
    {e e' : Failure} {s t : Session} (h : FailAlike G k read e s e' t) (subset : read' ⊆ read) :
    FailAlike G k read' e s e' t :=
  ⟨h.1, h.2.of_subset subset⟩

end Session

open Session (FailAlike)

namespace Survey

variable {slot : Slot} {G : Ground} {k : Likeness slot} {read : List ResourceId} {s t : Session}
  {allowed : Fault → Prop}

theorem eligible_pairs (given : Option ResourceId) (usable : Resource → Bool) (capability : String)
    (h : s.Alike G k read t) :
    (eligible given slot usable capability).Pairs allowed s
      (eligible given slot usable capability) t
      (fun ids s' ids' t' => ids' = ids ∧ s'.Alike G k (given.toList ++ read) t')
      (FailAlike G k read) := by
  unfold eligible
  cases given with
  | some id =>
    apply Attempt.Pairs.modifyGet_bind
    -- both sessions refuse the resource for the same reason, or both pass it
    rcases h.checkResource_cases id
      with ⟨reason, left, right⟩ | ⟨resource, s', t', left, right, passed⟩
    · rw [left, right]
      exact Attempt.Pairs.refuse (h.fail reason)
    · rw [left, right]
      simp only
      split
      · exact Attempt.Pairs.pure ⟨rfl, passed⟩
      · refine Attempt.Pairs.refuse (FailAlike.of_subset (passed.fail _) ?_)
        exact List.subset_cons_self _ _
  | none =>
    apply Attempt.Pairs.get_bind
    rw [Registry.select_of_roll (h.right.roll.trans h.left.roll.symm)]
    split
    · exact Attempt.Pairs.refuse (h.fail _)
    · exact Attempt.Pairs.pure ⟨rfl, h⟩

theorem examine_pairs (dimension : Dimension) (id : ResourceId) (h : s.Alike G k read t) :
    (examine slot dimension id).Pairs allowed s (examine slot dimension id) t
      fun found s' found' t' =>
      found' = found ∧ s'.Alike G k (found.toList.map (·.resource) ++ read) t' := by
  unfold examine
  apply Action.Pairs.modify_bind
  replace h := h.report (Session.reporting_openReport (.checkingResource id))
  generalize s.openReport (.checkingResource id) = s at h ⊢
  generalize t.openReport (.checkingResource id) = t at h ⊢
  apply Action.Pairs.modifyGet_bind
  rcases h.checkResource_cases id
    with ⟨reason, left, right⟩ | ⟨resource, s', t', left, right, passed⟩
  · rw [left, right]
    apply Action.Pairs.modify_bind
    apply Action.Pairs.modify_bind
    apply Action.Pairs.pure
    exact ⟨rfl, (h.report (Session.reporting_addError reason)).report Session.reporting_closeError⟩
  · rw [left, right]
    simp only
    obtain ⟨used, left, right⟩ := passed.used List.mem_cons_self dimension
    refine Action.Pairs.ask_bind left right ?_
    split
    · apply Action.Pairs.modify_bind
      apply Action.Pairs.modify_bind
      apply Action.Pairs.pure
      refine ⟨rfl, Session.Alike.of_subset ?_ (List.subset_cons_self id read)⟩
      exact (passed.report (Session.reporting_addError _)).report Session.reporting_closeError
    · rename_i free
      apply Action.Pairs.get_bind
      have roll := passed.right.roll.trans passed.left.roll.symm
      rw [Registry.index?_of_roll roll, Registry.nextIndex_of_roll roll]
      -- less than the maximum is in use, so there is a candidate
      have made (index maximum : Nat) (enough : ¬ maximum ≤ used) :
          Candidate.make id index maximum used = .ok ⟨id, index, maximum, maximum - used⟩ := by
        rw [Candidate.make, if_neg (by omega)]
      refine Action.Pairs.ask_bind (made _ _ free) (made _ _ free) ?_
      apply Action.Pairs.modify_bind
      apply Action.Pairs.modify_bind
      apply Action.Pairs.pure
      exact ⟨rfl, (passed.report (Session.reporting_addReport _)).report
        Session.reporting_closeReport⟩

theorem examineAll_pairs (dimension : Dimension) (ids : List ResourceId) :
    ∀ {read : List ResourceId} {s t : Session}, s.Alike G k read t →
      (examineAll slot dimension ids).Pairs allowed s (examineAll slot dimension ids) t
        fun cs s' cs' t' => cs' = cs ∧ s'.Alike G k (cs.map (·.resource) ++ read) t' := by
  induction ids with
  | nil => exact fun h => Action.Pairs.pure ⟨rfl, h⟩
  | cons id ids ih =>
    intro read s t h
    unfold examineAll
    refine Action.Pairs.bind (examine_pairs dimension id h) ?_
    rintro found s' found' t' ⟨rfl, h'⟩
    refine Action.Pairs.bind (ih h') ?_
    rintro others s'' others' t'' ⟨rfl, h''⟩
    refine Action.Pairs.pure ⟨rfl, h''.of_subset ?_⟩
    intro r mem
    simp only [List.map_append, List.mem_append] at mem ⊢
    -- what has been read is the same set in another order
    tauto

theorem available_pairs (dimension : Dimension) (ids : List ResourceId) (h : s.Alike G k read t) :
    (available slot dimension ids).Pairs allowed s
      (available slot dimension ids) t fun cs s' cs' t' =>
      cs' = cs ∧ s'.Alike G k (cs.map (·.resource) ++ read) t' := by
  unfold available
  apply Action.Pairs.modify_bind
  refine Action.Pairs.bind (examineAll_pairs dimension ids
    (h.report (Session.reporting_openReport .findingAvailableResource))) ?_
  rintro cs s' cs' t' ⟨rfl, h'⟩
  apply Action.Pairs.modify_bind
  exact Action.Pairs.pure ⟨rfl, h'.report Session.reporting_closeReport⟩

theorem candidates_pairs (given : Option ResourceId) (dimension : Dimension) (ids : List ResourceId)
    (h : s.Alike G k read t) :
    (candidates given slot dimension ids).Pairs allowed s (candidates given slot dimension ids) t
      fun cs s' cs' t' => cs' = cs ∧ s'.Alike G k (cs.map (·.resource) ++ read) t' := by
  unfold candidates
  refine Action.Pairs.bind (available_pairs dimension ids h) ?_
  rintro cs s' cs' t' ⟨rfl, h'⟩
  split
  · unfold rank
    apply Action.Pairs.modify_bind
    refine Action.Pairs.pure ⟨rfl,
      Session.Alike.of_subset (h'.report (Session.reporting_addReport _)) ?_⟩
    intro r mem
    rw [List.mem_append, ((Candidate.rank_perm cs').map _).mem_iff, ← List.mem_append] at mem
    exact mem
  · exact Action.Pairs.pure ⟨rfl, h'⟩

end Survey

end Conference
