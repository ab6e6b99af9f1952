import Conference.Allocation.Exclusive
import Conference.Proofs.Parallel.Job

/-!
# Exclusive use in alike sessions
-/

namespace Conference.Exclusive

open Session (FailAlike)

variable {slot : Slot} {G : Ground} {k : Likeness slot} {allowed : Fault → Prop}

theorem allocate_steady (id : ResourceId) (label : Option String) :
    (allocate id label slot).Steady allowed G k := by
  intro read s t h
  unfold allocate
  apply Attempt.Pairs.modifyGet_bind
  -- both refuse the resource for the same reason, or both pass it
  rcases h.checkResource_cases id
    with ⟨reason, left, right⟩ | ⟨resource, s', t', left, right, passed⟩
  · rw [left, right]
    exact Attempt.Pairs.refuse (h.fail reason)
  · rw [left, right]
    have refused (report : Report) :
        FailAlike G k read (s'.fail report).1 (s'.fail report).2
          (t'.fail report).1 (t'.fail report).2 :=
      FailAlike.of_subset (passed.fail report) (List.subset_cons_self _ _)
    simp only
    split
    · exact Attempt.Pairs.refuse (refused _)
    · obtain ⟨used, left, right⟩ := passed.used List.mem_cons_self .exclusive
      refine Attempt.Pairs.ask_bind left right ?_
      split
      · exact Attempt.Pairs.refuse (refused _)
      · obtain ⟨key, made⟩ := passed.create
          (.made slot (node id label resource.technologies)) rfl
        exact Attempt.Pairs.modifyGet ⟨key, made.of_subset (List.subset_cons_self _ _)⟩

theorem job_steady (id : ResourceId) : (job id slot).Steady allowed G k :=
  ⟨rfl, rfl, allocate_steady id none⟩

theorem endpointJob_steady (id : ResourceId) (label : String) :
    (endpointJob id label slot).Steady allowed G k :=
  ⟨rfl, rfl, allocate_steady id (some label)⟩

end Conference.Exclusive
