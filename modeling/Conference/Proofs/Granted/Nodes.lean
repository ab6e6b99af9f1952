import Conference.Proofs.Allocation.Compartment
import Conference.Proofs.Search.Survey
import Conference.Proofs.Session.Growth

/-!
# The nodes of what is granted

An allocation that succeeds hands over the key of the node that it has made. Here is what that node
says, and what is known of the resource that it names. A node that is there stays as it is while the
allocation goes on, so what holds of it when it is made holds of the tree in the end.
-/

namespace Conference

theorem Registry.id_of_get? {g : Registry} {id : ResourceId} {r : Resource}
    (found : g.get? id = some r) :
    r.id = id := by
  obtain ⟨e, there, rfl⟩ := Option.map_eq_some_iff.1 found
  exact named_of_find? there

/-! ## Sessions under way -/

/-- The session knows the resources of a registry, and its forest is in progress. -/
structure Session.Under (g : Registry) (s : Session) : Prop where
  distinct : (g.resources.map (·.id)).Nodup
  resources : s.registry.resources = g.resources
  progress : s.reservations.InProgress

/-- The nodes of one forest are those of another under their keys, as far as there are any. -/
def ReservationForest.Extends (f g : ReservationForest) : Prop :=
  ∀ (key : Nat) (node : Reservation), f.get? key = some node → g.get? key = some node

namespace Session

variable {g : Registry} {s t : Session} {made : List (List Nat)}

theorem Under.resource? (h : s.Under g) (id : ResourceId) : s.resource? id = g.get? id :=
  Registry.get?_congr h.resources id

theorem Under.of_quiet (h : s.Under g) (quiet : s.Quiet t) : t.Under g where
  distinct := h.distinct
  resources := quiet.resources.trans h.resources
  progress := by
    rw [quiet.reservations]
    exact h.progress

/-- An allocation goes on under the same registry. -/
theorem Under.builds (h : s.Under g) (builds : s.Builds t made) : t.Under g := by
  obtain ⟨new, added, grows⟩ := builds.grows h.progress
  exact ⟨h.distinct, builds.agrees.resources.trans h.resources, h.progress.of_grows grows.forest⟩

/-- An allocation leaves the nodes that it finds. -/
theorem Under.extends (h : s.Under g) (builds : s.Builds t made) :
    s.reservations.Extends t.reservations := by
  obtain ⟨new, added, grows⟩ := builds.grows h.progress
  exact fun _ _ found => grows.forest.get? found

theorem Under.mem_select (h : s.Under g) {p : Resource → Bool} {id : ResourceId}
    (mem : id ∈ s.registry.select p) : ∃ r, g.get? id = some r ∧ p r := by
  have selected : s.registry.select p = g.select p := by
    unfold Registry.select
    rw [show s.registry.entries.map (·.resource) = g.entries.map (·.resource) from h.resources]
  rw [selected] at mem
  exact (Registry.mem_select h.distinct).1 mem

end Session

/-! ## Candidates -/

namespace Survey

variable {g : Registry} {s : Session} {slot : Slot} {dimension : Dimension}

/-- Only the resources that are surveyed become candidates. -/
theorem examineAll_mem (ids : List ResourceId) :
    ∀ s : Session, (examineAll slot dimension ids).Ensures s fun cs _ =>
      ∀ c ∈ cs, c.resource ∈ ids := by
  induction ids with
  | nil =>
    intro s
    exact Action.Ensures.pure fun _ never => nomatch never
  | cons id ids ih =>
    intro s
    unfold examineAll
    refine Action.Ensures.bind (examine_checks slot dimension id s) ?_
    intro found t checked
    refine Action.Ensures.bind (ih t) ?_
    intro others u rest
    apply Action.Ensures.pure
    intro c hc
    rcases List.mem_append.1 hc with h | h
    · -- the candidate of an examination stands for the resource examined
      rw [(checked c h).1]
      exact List.mem_cons_self
    · exact List.mem_cons_of_mem _ (rest c h)

theorem available_mem (ids : List ResourceId) (s : Session) :
    (available slot dimension ids).Ensures s fun cs _ => ∀ c ∈ cs, c.resource ∈ ids := by
  unfold available
  apply Action.Ensures.modify_bind
  refine Action.Ensures.bind (examineAll_mem ids _) ?_
  intro cs t among
  apply Action.Ensures.modify_bind
  exact Action.Ensures.pure among

theorem candidates_mem (given : Option ResourceId) (ids : List ResourceId) (s : Session) :
    (candidates given slot dimension ids).Ensures s fun cs _ => ∀ c ∈ cs, c.resource ∈ ids := by
  unfold candidates
  refine Action.Ensures.bind (available_mem ids s) ?_
  intro cs t among
  split
  · unfold rank
    apply Action.Ensures.modify_bind
    exact Action.Ensures.pure fun c hc => among c ((Candidate.rank_perm cs).mem_iff.1 hc)
  · exact Action.Ensures.pure among

/-- The resources that come into question are registered and usable. -/
theorem eligible_usable (h : s.Under g) (given : Option ResourceId) (usable : Resource → Bool)
    (capability : String) :
    (eligible given slot usable capability).Delivers s fun ids _ =>
      ∀ id ∈ ids, ∃ r, g.get? id = some r ∧ usable r := by
  unfold eligible
  cases given with
  | some id =>
    apply Attempt.Ensures.modifyGet_bind
    split
    · exact Attempt.Delivers.refuse
    · rename_i resource passed
      split
      · -- the given resource has passed the check and is usable
        rename_i fits
        apply Attempt.Ensures.pure
        intro id' mem
        rw [List.mem_singleton.1 mem, ← h.resource?]
        exact ⟨resource, Session.resource?_of_checkResource passed, fits⟩
      · exact Attempt.Delivers.refuse
  | none =>
    apply Attempt.Ensures.get_bind
    split
    · exact Attempt.Delivers.refuse
    · exact Attempt.Ensures.pure fun id mem => h.mem_select mem

end Survey

/-! ## Exclusive use -/

namespace Exclusive

variable {g : Registry} {s : Session}

/-- The node of an endpoint is for a registered terminal and has its technologies. -/
theorem endpointJob_delivers (h : s.Under g) (id : ResourceId) (label : String) (slot : Slot) :
    (endpointJob id label slot).run.Delivers s fun key t =>
      ∃ r, g.get? id = some r ∧ r.terminal?.isSome
      ∧ t.reservations.get? key
        = some (.made slot (.endpoint label (some id) r.technologies 1)) := by
  apply Job.run_delivers
  show (allocate id (some label) slot).Delivers (s.enter (.allocatingEndpoint label)) _
  have entered := h.of_quiet (s.quiet_enter (.allocatingEndpoint label))
  unfold allocate
  apply Attempt.Ensures.modifyGet_bind
  have checked := entered.of_quiet (Session.quiet_checkResource _ id slot)
  split
  · exact Attempt.Delivers.refuse
  · rename_i resource passed
    split
    · exact Attempt.Delivers.refuse
    · rename_i capable
      apply Attempt.Ensures.ask_bind
      intro used _
      split
      · exact Attempt.Delivers.refuse
      · -- the one remaining way: the resource has passed the check and is a terminal
        refine Attempt.Ensures.modifyGet ⟨resource, ?_, ?_, checked.progress.get?_insert _⟩
        · rw [← entered.resource?]
          exact Session.resource?_of_checkResource passed
        · rw [Option.isSome_iff_ne_none]
          simpa using capable

end Exclusive

end Conference
