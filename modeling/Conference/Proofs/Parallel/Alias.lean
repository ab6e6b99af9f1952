import Conference.Allocation.Alias
import Conference.Proofs.Parallel.Job

/-!
# Aliases in alike sessions

The values that are handed out during the slot are the same, so the same value is picked.
-/

namespace Conference

/-- Both runs hand over the same node, or both none. -/
def Session.FoundAlike {slot : Slot} (G : Ground) (k : Likeness slot) (read : List ResourceId)
    (found : Option Nat) (s : Session) (found' : Option Nat) (t : Session) : Prop :=
  found' = found.map (· + k.ahead) ∧ s.Alike G k read t

namespace AliasSpec

open Session (FailAlike KeyAlike FoundAlike)

variable {slot : Slot} {G : Ground} {k : Likeness slot} {read : List ResourceId} {s t : Session}
  {allowed : Fault → Prop}

theorem pickValue_pairs (spec : AliasSpec) {id : ResourceId} (mem : id ∈ read)
    (provider : AliasProvider) (h : s.Alike G k read t) :
    (spec.pickValue slot id provider).Pairs allowed s (spec.pickValue slot id provider) t
      fun picked s' picked' t' => picked' = picked ∧ s'.Alike G k read t' := by
  unfold pickValue
  -- both see the same values in use, so both choose the same one
  obtain ⟨values, left, right⟩ := h.allocatedValues mem
  refine Action.Pairs.ask_bind left right ?_
  have reported (report : Report) : (s.addError report).Alike G k read (t.addError report) :=
    h.report (Session.reporting_addError report)
  split
  · split
    · apply Action.Pairs.modify_bind
      exact Action.Pairs.pure ⟨rfl, reported _⟩
    · split
      · apply Action.Pairs.modify_bind
        exact Action.Pairs.pure ⟨rfl, reported _⟩
      · exact Action.Pairs.pure ⟨rfl, h⟩
  · split
    · exact Action.Pairs.pure ⟨rfl, h⟩
    · apply Action.Pairs.modify_bind
      exact Action.Pairs.pure ⟨rfl, reported _⟩

theorem reserve_pairs (spec : AliasSpec) (id : ResourceId) (provider : AliasProvider)
    (value : String) (h : s.Alike G k read t) :
    (spec.reserve slot id provider value).Pairs allowed s (spec.reserve slot id provider value) t
      (KeyAlike G k read) := by
  unfold reserve
  apply Action.Pairs.modifyGet_bind
  apply Action.Pairs.modifyGet_bind
  generalize shown : ReservationKind.aliases id
    ((provider.matching spec.types spec.technologies).map (·.generate value)) = kind
  obtain ⟨key, first⟩ := h.create (.made slot kind) rfl
  obtain ⟨child, second⟩ := first.create (.made slot (.value id value)) rfl
  -- the keys are those of two new nodes, so the link between them meets no fault
  obtain ⟨f, attached⟩ := h.progress.exists_attach (.made slot kind) (.made slot (.value id value))
  have left : ((s.create (.made slot kind)).2.create (.made slot (.value id value))).2.attach
      (s.create (.made slot kind)).1
      ((s.create (.made slot kind)).2.create (.made slot (.value id value))).1
      = .ok { ((s.create (.made slot kind)).2.create (.made slot (.value id value))).2 with
        reservations := f } := by
    unfold Session.attach
    have same : ((s.create (.made slot kind)).2.create
        (.made slot (.value id value))).2.reservations.attach (s.create (.made slot kind)).1
        ((s.create (.made slot kind)).2.create (.made slot (.value id value))).1 = .ok f := attached
    rw [same]
    rfl
  obtain ⟨t', right, linked⟩ := second.attach left
  rw [← key, ← child] at right
  refine Action.Pairs.change_bind left right ?_
  exact Action.Pairs.pure ⟨key, linked⟩

theorem tryAll_pairs (spec : AliasSpec) (cs : List Candidate) :
    ∀ {s t : Session}, (∀ c ∈ cs, c.resource ∈ read) → s.Alike G k read t →
      (spec.tryAll slot cs).Pairs allowed s (spec.tryAll slot cs) t (FoundAlike G k read) := by
  induction cs with
  | nil => exact fun _ h => Action.Pairs.pure ⟨rfl, h⟩
  | cons c cs ih =>
    intro s t among h
    have others (d : Candidate) (mem : d ∈ cs) := among d (List.mem_cons_of_mem _ mem)
    unfold tryAll
    apply Action.Pairs.get_bind
    -- both find the same resource under the identifier
    rw [h.left.resource?_eq h.right]
    split
    · exact ih others h
    · rename_i provider _
      apply Action.Pairs.modify_bind
      have opened := h.report (Session.reporting_openReport (.allocatingValue c.resource))
      refine Action.Pairs.bind (pickValue_pairs spec
        (among c List.mem_cons_self) provider opened) ?_
      rintro picked s' picked' t' ⟨rfl, h'⟩
      cases picked' with
      | none =>
        apply Action.Pairs.modify_bind
        exact ih others (h'.report Session.reporting_closeError)
      | some value =>
        apply Action.Pairs.modify_bind
        apply Action.Pairs.map
        refine Action.Pairs.mono (reserve_pairs spec c.resource provider value
          (h'.report Session.reporting_closeReport)) ?_
        rintro key s'' key' t'' ⟨rfl, h''⟩
        exact ⟨rfl, h''⟩

/-- The reason of a failure is read off the registered resources. -/
theorem reason_congr (spec : AliasSpec) {g g' : Registry} (same : g'.resources = g.resources)
    (ids : List ResourceId) : spec.reason g' ids = spec.reason g ids := by
  have refuses (value : String) : refuses g' value = refuses g value := by
    funext id
    unfold AliasSpec.refuses
    rw [Registry.get?_congr same]
  unfold reason
  simp only [refuses]

theorem allocate_steady (spec : AliasSpec) (target : Option ResourceId) :
    (spec.allocate target slot).Steady allowed G k := by
  intro read s t h
  unfold allocate
  refine Attempt.Pairs.bind
    (Survey.eligible_pairs spec.resource (spec.isUsable target) spec.capability h) ?_
  rintro ids s' ids' t' ⟨rfl, h'⟩
  -- what was read before is among what has been read since
  have subset (rs : List ResourceId) : read ⊆ rs ++ (spec.resource.toList ++ read) := by
    intro r mem
    simp [mem]
  refine Attempt.Pairs.bind
    (Attempt.Pairs.lift (Survey.candidates_pairs spec.resource .values ids' h')) ?_
  rintro cs s'' cs' t'' ⟨rfl, h''⟩
  have among : ∀ c ∈ cs', c.resource ∈ cs'.map (·.resource) ++ (spec.resource.toList ++ read) :=
    fun c mem => List.mem_append_left _ (List.mem_map_of_mem mem)
  refine Attempt.Pairs.bind (Attempt.Pairs.lift (tryAll_pairs spec cs' among h'')) ?_
  rintro found u found' v ⟨rfl, found_alike⟩
  cases found with
  | some key => exact Attempt.Pairs.pure ⟨rfl, found_alike.of_subset (subset _)⟩
  | none =>
    apply Attempt.Pairs.get_bind
    have resources :=
      Registry.resources_of_roll (found_alike.right.roll.trans found_alike.left.roll.symm)
    rw [reason_congr spec resources]
    exact Attempt.Pairs.refuse (FailAlike.of_subset (found_alike.fail _) (subset _))

theorem job_steady (spec : AliasSpec) (target : Option ResourceId) :
    (spec.job target slot).Steady allowed G k :=
  ⟨rfl, rfl, allocate_steady spec target⟩

end AliasSpec

end Conference
