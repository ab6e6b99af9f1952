import Conference.Allocation.Exclusive
import Conference.Proofs.Job

/-!
# Exclusive use is orderly

A resource that nothing else uses exclusively during the slot has its one unit left.
-/

namespace Conference.Exclusive

variable {id : ResourceId} {label : Option String} {slot : Slot}

theorem claim?_node (id : ResourceId) (label : Option String) (technologies : TechnologySet)
    (slot : Slot) :
    (Reservation.made slot (node id label technologies)).claim? = some (id, slot, .exclusive) := by
  cases label <;> rfl

theorem admits_exclusive {s : Session} {r : Resource} (found : s.resource? id = some r)
    (free : s.load id slot .exclusive = 0) : s.Admits id slot .exclusive where
  capacity := by
    refine ⟨r, found, Or.inr ?_⟩
    show s.load id slot .exclusive + 1 ≤ 1
    omega
  free := fun _ h => nomatch h

theorem allocate_buildsTree (id : ResourceId) (label : Option String) (slot : Slot) (s : Session) :
    (allocate id label slot).BuildsTree s := by
  unfold allocate
  apply Attempt.Ensures.modifyGet_bind
  have checked := s.quiet_checkResource id slot
  have refused (report : Report) : s.Leaves ((s.checkResource id slot).2.fail report).2 :=
    .of_quiet (checked.trans (Session.quiet_fail _ report))
  split
  · exact Attempt.Ensures.refuse (refused _)
  · rename_i resource passed
    split
    · exact Attempt.Ensures.refuse (refused _)
    · apply Attempt.Ensures.ask_bind
      intro used known
      split
      · exact Attempt.Ensures.refuse (refused _)
      · rename_i unused
        refine Attempt.Ensures.modifyGet ⟨[], .create_of_quiet checked _ ?_⟩
        intro id' slot' usage claim current
        rw [claim?_node] at claim
        cases claim
        refine admits_exclusive (Session.resource?_of_checkResource passed) ?_
        -- the usage that has been read is the load, and it is zero here
        have same := (checked.current current).used_eq known
        rw [checked.load] at same
        omega

theorem orderly_job (id : ResourceId) (slot : Slot) : (job id slot).Orderly :=
  fun s => allocate_buildsTree id none slot s

theorem orderly_endpointJob (id : ResourceId) (label : String) (slot : Slot) :
    (endpointJob id label slot).Orderly :=
  fun s => allocate_buildsTree id (some label) slot s

end Conference.Exclusive
