import Conference.Proofs.Registry.Catalogue
import Conference.Proofs.Sample
import Mathlib.Data.List.Induction

/-!
# Which resources stand

A registry is loaded, and resources are added to it and removed, in any order and any number of
times. To load an inventory is to remove everything and then to add its resources, one by one. So a
history is a list of single steps, and what is registered in the end can be told from it without any
registry: a resource stands if some step added it, with success, and no later step took it out.

By induction on the steps the entries of a registry are the resources that stand, in the order of
their steps. A catalogue shows the registry, whatever store it is kept in.
-/

namespace Conference

/-- What may be done to the resources of a registry. -/
inductive Upkeep where
  | load (inv : Inventory)
  | add (resource : Resource)
  | remove (id : ResourceId)

namespace Upkeep

/-- A single change of the resources. -/
inductive Step where
  | clear
  | add (resource : Resource)
  | remove (id : ResourceId)

/-- The step takes out the resource with the identifier. -/
def Step.Drops (id : ResourceId) : Step → Prop
  | .clear => True
  | .add _ => False
  | .remove dropped => dropped = id

def steps : Upkeep → List Step
  | load inv => .clear :: inv.resources.map .add
  | add resource => [.add resource]
  | remove id => [.remove id]

theorem foldl_steps {σ : Type} {keep : σ → Upkeep → σ} {perform : σ → Step → σ}
    (each : ∀ s op, keep s op = op.steps.foldl perform s) (ops : List Upkeep) (s : σ) :
    ops.foldl keep s = (ops.flatMap steps).foldl perform s := by
  rw [List.foldl_flatMap]
  exact congrArg (fun f => ops.foldl f s) (funext fun s => funext (each s))

end Upkeep

namespace Registry

def perform (g : Registry) : Upkeep.Step → Registry
  | .clear => { g with entries := [], nextIndex := 0 }
  | .add resource => (g.add resource).2
  | .remove id => (g.remove id).2

def keep (g : Registry) : Upkeep → Registry
  | .load inv => g.load inv
  | .add resource => (g.add resource).2
  | .remove id => (g.remove id).2

/-- The registry after some upkeep of an empty one. -/
def kept (ops : List Upkeep) : Registry := ops.foldl keep empty

theorem kept_eq (ops : List Upkeep) :
    kept ops = (ops.flatMap Upkeep.steps).foldl perform empty := by
  refine Upkeep.foldl_steps (fun g op => ?_) ops empty
  cases op with
  | load inv =>
    rw [Upkeep.steps, List.foldl_cons, List.foldl_map]
    rfl
  | add resource => rfl
  | remove id => rfl

theorem Numbered.perform {g : Registry} (h : g.Numbered) (step : Upkeep.Step) :
    (g.perform step).Numbered := by
  cases step with
  | clear => exact numbered_of_entries_eq_nil rfl
  | add resource => exact h.add resource
  | remove id => exact h.remove id

end Registry

namespace Catalogue

variable {S : Store Registered} {D : Directory S.Key}

def perform (c : Catalogue S D) : Upkeep.Step → Catalogue S D
  | .clear => c.clear
  | .add resource => (c.add resource).2
  | .remove id => (c.remove id).2

def keep (c : Catalogue S D) : Upkeep → Catalogue S D
  | .load inv => c.load inv
  | .add resource => (c.add resource).2
  | .remove id => (c.remove id).2

variable (S D)

/-- The catalogue after some upkeep of an empty one. -/
def kept (ops : List Upkeep) : Catalogue S D := ops.foldl keep empty

/-- The catalogue after some steps. -/
def after (steps : List Upkeep.Step) : Catalogue S D := steps.foldl perform empty

/-- The resource was added by the step at the place, with success, and no later step took it out. -/
structure Stands (steps : List Upkeep.Step) (place : Nat) (resource : Resource) : Prop where
  added : steps[place]? = some (.add resource)
  successful : ((after S D (steps.take place)).add resource).1 = true
  kept : ∀ later step, place < later → steps[later]? = some step → ¬ step.Drops resource.id

variable {S D}

theorem kept_eq (ops : List Upkeep) : kept S D ops = after S D (ops.flatMap Upkeep.steps) := by
  refine Upkeep.foldl_steps (fun c op => ?_) ops empty
  cases op with
  | load inv =>
    rw [Upkeep.steps, List.foldl_cons, List.foldl_map]
    rfl
  | add resource => rfl
  | remove id => rfl

/-- One step more takes some resources out, and adds the resource of a successful addition. -/
theorem stands_concat {steps : List Upkeep.Step} {step : Upkeep.Step} {place : Nat}
    {resource : Resource} :
    Stands S D (steps ++ [step]) place resource
      ↔ Stands S D steps place resource ∧ ¬ step.Drops resource.id
        ∨ place = steps.length ∧ step = .add resource
        ∧ ((after S D steps).add resource).1 = true := by
  constructor
  · intro h
    -- the resource was added before the new step, by the new step, or never
    rcases Nat.lt_trichotomy place steps.length with old | last | beyond
    · have added := h.added
      have successful := h.successful
      rw [List.getElem?_append_left old] at added
      rw [List.take_append_of_le_length (Nat.le_of_lt old)] at successful
      refine .inl ⟨⟨added, successful, fun later other after there =>
        h.kept later other after ?_⟩, ?_⟩
      · obtain ⟨range, -⟩ := List.getElem?_eq_some_iff.1 there
        rw [List.getElem?_append_left range, there]
      · exact h.kept steps.length step old List.getElem?_concat_length
    · subst last
      have added := h.added
      have successful := h.successful
      rw [List.getElem?_concat_length, Option.some.injEq] at added
      rw [List.take_left] at successful
      exact .inr ⟨rfl, added, successful⟩
    · have added := h.added
      rw [List.getElem?_eq_none (by rw [List.length_append]; exact beyond)] at added
      cases added
  · rintro (⟨h, stays⟩ | ⟨rfl, rfl, successful⟩)
    · obtain ⟨old, -⟩ := List.getElem?_eq_some_iff.1 h.added
      refine ⟨?_, ?_, fun later other after there => ?_⟩
      · rw [List.getElem?_append_left old, h.added]
      · rw [List.take_append_of_le_length (Nat.le_of_lt old)]
        exact h.successful
      · -- a step behind the addition is an old one, or the new one, which drops nothing of this
        rcases Nat.lt_or_ge later steps.length with before | last
        · rw [List.getElem?_append_left before] at there
          exact h.kept later other after there
        · rw [List.getElem?_append_right last, List.getElem?_singleton] at there
          split at there
          · cases there
            exact stays
          · cases there
    · refine ⟨List.getElem?_concat_length, ?_, fun later other after there => ?_⟩
      · rw [List.take_left]
        exact successful
      · rw [List.getElem?_eq_none (by rw [List.length_append]; exact after)] at there
        cases there

/-! ## A run -/

theorem shows_after (stored : S.Lawful) (directed : D.Lawful) (steps : List Upkeep.Step) :
    (steps.foldl Registry.perform .empty).Numbered
      ∧ (after S D steps).Shows (steps.foldl Registry.perform .empty) := by
  induction steps using List.reverseRecOn with
  | nil => exact ⟨Registry.numbered_of_entries_eq_nil rfl, shows_empty stored directed⟩
  | append_singleton steps step ih =>
    obtain ⟨numbered, same⟩ := ih
    rw [after, List.foldl_append, List.foldl_append]
    refine ⟨numbered.perform step, ?_⟩
    cases step with
    | clear => exact same.clear stored directed
    | add resource => exact (same.add stored directed numbered resource).2
    | remove id => exact (same.remove stored directed numbered id).2

theorem shows_kept (stored : S.Lawful) (directed : D.Lawful) (ops : List Upkeep) :
    (Registry.kept ops).Numbered ∧ (kept S D ops).Shows (Registry.kept ops) := by
  rw [kept_eq, Registry.kept_eq]
  exact shows_after stored directed (ops.flatMap Upkeep.steps)

theorem Stands.lt_length {steps : List Upkeep.Step} {place : Nat} {resource : Resource}
    (h : Stands S D steps place resource) : place < steps.length :=
  (List.getElem?_eq_some_iff.1 h.added).1

/-- By induction on the steps, the last one first: it drops entries from the list or adds one at the
end. -/
theorem exists_standing (stored : S.Lawful) (directed : D.Lawful) (steps : List Upkeep.Step) :
    ∃ standing : List (Nat × Resource),
      standing.Pairwise (·.1 < ·.1)
      ∧ (∀ place resource, (place, resource) ∈ standing ↔ Stands S D steps place resource)
      ∧ (steps.foldl Registry.perform .empty).entries.map (·.resource) = standing.map (·.2) := by
  induction steps using List.reverseRecOn with
  | nil =>
    exact ⟨[], .nil, fun place resource =>
      ⟨nofun, fun h => absurd h.lt_length (Nat.not_lt_zero _)⟩, rfl⟩
  | append_singleton steps step ih =>
    obtain ⟨standing, ascending, stands, entries⟩ := ih
    obtain ⟨numbered, same⟩ := shows_after stored directed steps
    rw [List.foldl_append]
    show ∃ _, _ ∧ _ ∧ ((steps.foldl Registry.perform .empty).perform step).entries.map _ = _
    generalize steps.foldl Registry.perform .empty = g at entries numbered same
    cases step with
    | clear =>
      -- nothing that was added before stands, and the step adds nothing
      refine ⟨[], .nil, fun place resource => ?_, rfl⟩
      simp [stands_concat, Upkeep.Step.Drops]
    | remove id =>
      refine ⟨standing.filter (·.2.id != id), ascending.filter _, fun place resource => ?_, ?_⟩
      · rw [stands_concat, ← stands]
        simp [Upkeep.Step.Drops, @eq_comm _ id]
      · show (g.remove id).2.entries.map _ = _
        have resources : (g.entries.map (·.resource)).filter (·.id != id)
            = (standing.map (·.2)).filter (·.id != id) :=
          congrArg _ entries
        rw [List.filter_map, List.filter_map] at resources
        rw [Registry.entries_remove numbered]
        exact resources
    | add resource =>
      have more (place : Nat) (other : Resource) : Stands S D (steps ++ [.add resource]) place other
          ↔ Stands S D steps place other ∨ (place, other) = (steps.length, resource)
          ∧ g.contains resource.id = false := by
        rw [stands_concat, Upkeep.Step.Drops, not_false_eq_true, and_true, Prod.mk.injEq, and_assoc]
        refine or_congr_right (and_congr_right fun _ => ?_)
        rw [Upkeep.Step.add.injEq, @eq_comm _ resource]
        refine and_congr_right fun equal => ?_
        rw [equal, (same.add stored directed numbered resource).1,
          Registry.add_fst, Bool.not_eq_true']
      show ∃ _, _ ∧ _ ∧ (g.add resource).2.entries.map _ = _
      cases there : g.contains resource.id with
      | true =>
        -- the addition is refused, so that it does not make its resource stand
        refine ⟨standing, ascending, fun place other => ?_, ?_⟩
        · simp [more, there, stands]
        · rw [Registry.add_of_contains there, entries]
      | false =>
        refine ⟨standing ++ [(steps.length, resource)], ?_, fun place other => ?_, ?_⟩
        · refine List.pairwise_append.2 ⟨ascending, List.pairwise_singleton _ _, ?_⟩
          rintro ⟨place, other⟩ mem _ new
          rw [List.mem_singleton.1 new]
          exact ((stands place other).1 mem).lt_length
        · rw [List.mem_append, List.mem_singleton, stands, more, there, eq_self_iff_true, and_true]
        · rw [Registry.add_of_not_contains there, List.map_append, List.map_append, entries]
          rfl

variable (S D)

/-- After any loads, additions and removals the catalogue holds the resources that stand, each under
its identifier, and selects among them in the order of the steps that added them, whatever the order
of the store. Its answers agree on which identifiers are registered. Another addition of one of
these is refused and changes nothing. No two of them have the same place in the order of
registration. The registry gives the same answers. -/
theorem catalogue_holds_standing (stored : S.Lawful) (directed : D.Lawful) (ops : List Upkeep) :
    let c := kept S D ops
    let g := Registry.kept ops
    (∃ standing : List (Nat × Resource),
      standing.Pairwise (·.1 < ·.1)
      ∧ (∀ place resource, (place, resource) ∈ standing
        ↔ Stands S D (ops.flatMap Upkeep.steps) place resource)
      ∧ (standing.map (·.2.id)).Nodup
      ∧ (∀ id, c.contains id = true ↔ id ∈ standing.map (·.2.id))
      ∧ c.size = standing.length
      ∧ ∀ p, c.select p = ((standing.map (·.2)).filter p).map (·.id) ∧ (c.select p).Nodup)
    ∧ (∀ id resource, c.get? id = some resource
      ↔ resource.id = id ∧ ∃ place, Stands S D (ops.flatMap Upkeep.steps) place resource)
    ∧ (∀ id, (c.get? id).isSome = c.contains id ∧ (c.index? id).isSome = c.contains id)
    ∧ (∀ resource, (c.add resource).1 = !c.contains resource.id
      ∧ (c.contains resource.id = true → c.add resource = (false, c)))
    ∧ (∀ id id' place, c.index? id = some place → c.index? id' = some place → id = id')
    ∧ (∀ id, c.get? id = g.get? id ∧ c.contains id = g.contains id ∧ c.index? id = g.index? id)
    ∧ (∀ resource, (c.add resource).1 = (g.add resource).1)
    ∧ c.size = g.size
    ∧ ∀ p, c.select p = g.select p := by
  intro c g
  obtain ⟨numbered, same⟩ : g.Numbered ∧ c.Shows g := shows_kept stored directed ops
  obtain ⟨standing, ascending, stands, entries⟩ :=
    exists_standing stored directed (ops.flatMap Upkeep.steps)
  rw [← Registry.kept_eq] at entries
  have find (id : ResourceId) : c.find? id = g.find? id := same.find? stored numbered id
  have got (id : ResourceId) : c.get? id = g.get? id := congrArg (Option.map _) (find id)
  have placed (id : ResourceId) : c.index? id = g.index? id := congrArg (Option.map _) (find id)
  have contains (id : ResourceId) : c.contains id = g.contains id :=
    same.contains stored numbered id
  have refused (resource : Resource) : (c.add resource).1 = (g.add resource).1 :=
    (same.add stored directed numbered resource).1
  -- the catalogue shows the registry, and the registry lists just what stands
  have ids : g.entries.map (·.resource.id) = standing.map (·.2.id) := by
    have mapped := congrArg (List.map (·.id)) entries
    rwa [List.map_map, List.map_map] at mapped
  refine ⟨⟨standing, ascending, stands, ids ▸ numbered.ids, fun id => ?_, ?_, fun p => ⟨?_, ?_⟩⟩,
    fun id resource => ?_, fun id => ⟨?_, ?_⟩, fun resource =>
      ⟨?_, fun there => if_pos there⟩, fun id id' place at_place at_place' => ?_, fun id =>
        ⟨got id, contains id, placed id⟩, refused, same.size, same.select numbered⟩
  · rw [contains, Registry.contains_iff, ids]
  · rw [same.size, Registry.size, ← List.length_map (·.resource), entries, List.length_map]
  · rw [same.select numbered, Registry.select, entries]
  · rw [same.select numbered]
    exact Registry.select_nodup numbered p
  · rw [got, Registry.get?_eq_some_iff numbered, entries]
    simp [stands]
  · rw [Catalogue.get?, Option.isSome_map, same.isSome_find?]
  · rw [Catalogue.index?, Option.isSome_map, same.isSome_find?]
  · rw [refused, Registry.add_fst, contains]
  · rw [placed] at at_place at_place'
    exact Registry.eq_of_index? numbered at_place at_place'

/-- In slots the hall takes the place of the device that was removed, and is listed before the
terminal from then on. It is selected behind the terminal, and before the device that was added
again. A second terminal is refused. -/
theorem sample_catalogue_holds_standing :
    let S := Slots.store Registered
    let D := Directory.function (Nat × Nat)
    let ops : List Upkeep :=
      [.load Sample.inventory, .remove Sample.device.id, .add Sample.hall,
        .add Sample.terminal, .add Sample.device]
    let c := kept S D ops
    S.Lawful ∧ D.Lawful
    ∧ (S.entries c.resources).map (·.2.resource.id.text) = ["hall", "desk", "mcu"]
    ∧ (c.select fun _ => true) = [Sample.terminal.id, Sample.hall.id, Sample.device.id]
    ∧ (∃ place, Stands S D (ops.flatMap Upkeep.steps) place Sample.terminal)
    ∧ c.add Sample.terminal = (false, c) := by
  intro S D ops c
  have stored : S.Lawful := Slots.lawful_store _
  have directed : D.Lawful := Directory.lawful_function (Nat × Nat)
  obtain ⟨-, got, -, added, -, -, -, -, selected⟩ :=
    catalogue_holds_standing S D stored directed ops
  -- the desk was loaded and has not been removed
  have there : c.get? Sample.terminal.id = some Sample.terminal := by decide
  refine ⟨stored, directed, by decide, ?_, ((got _ _).1 there).2,
    (added Sample.terminal).2 (by decide)⟩
  rw [selected]
  decide

end Catalogue

end Conference
