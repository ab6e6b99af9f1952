import Conference.Inventory
import Conference.Proofs.Session.Builds

/-!
# What a commit adds

A commit puts the claims of a tree behind the allocations that are there, in pre-order and each
under an identifier of its own. The identifiers of an inventory are numbered through, so whatever is
done to it in between, those that it has given out are distinct, and so are their texts.
-/

namespace Conference

namespace Inventory

variable {inv mid left : Inventory} {ids others : List GlobalId}

/-- Reservation identifiers of one inventory that are written alike are the same. -/
theorem render_reservationId {m n : Nat}
    (same : (inv.reservationId m).render = (inv.reservationId n).render) : m = n := by
  have texts := String.ofList_injective same
  simp only [reservationId, List.cons_append, List.append_assoc, List.append_cancel_left_eq,
    List.cons.injEq, true_and] at texts
  exact Numeral.digits_injective texts

/-- The identifiers that are given out next. -/
def upcoming (inv : Inventory) (n : Nat) : List GlobalId :=
  (List.range' (inv.committed + 1) n).map inv.reservationId

theorem render_upcoming_nodup (inv : Inventory) (n : Nat) :
    ((inv.upcoming n).map (·.render)).Nodup := by
  unfold upcoming
  rw [List.map_map, List.nodup_iff_pairwise_ne, List.pairwise_map]
  refine List.Pairwise.imp ?_ (List.nodup_iff_pairwise_ne.1 List.nodup_range')
  exact fun apart same => apart (render_reservationId same)

/-- On the way from one inventory to another the next identifiers have been given out. -/
structure Issues (inv left : Inventory) (ids : List GlobalId) : Prop where
  domain : left.domain = inv.domain
  committed : left.committed = inv.committed + ids.length
  ids : ids = inv.upcoming ids.length

theorem Issues.refl (inv : Inventory) : inv.Issues inv [] := ⟨rfl, rfl, rfl⟩

theorem Issues.trans (h : inv.Issues mid ids) (h' : mid.Issues left others) :
    inv.Issues left (ids ++ others) where
  domain := h'.domain.trans h.domain
  committed := by
    rw [h'.committed, h.committed, List.length_append, Nat.add_assoc]
  ids := by
    -- the number goes on, and the domain, which is all that an identifier has besides, stays
    have numbering : mid.reservationId = inv.reservationId := by
      unfold reservationId
      rw [h.domain]
    have later : others = (List.range' (inv.committed + 1 + ids.length) others.length).map
        inv.reservationId := by
      rw [← numbering, Nat.add_right_comm, ← h.committed]
      exact h'.ids
    have earlier := h.ids
    rw [upcoming] at earlier
    rw [upcoming, List.length_append, ← List.range'_append_1, List.map_append, ← earlier, ← later]

theorem Issues.render_nodup (h : inv.Issues left ids) : (ids.map (·.render)).Nodup := by
  rw [h.ids]
  exact inv.render_upcoming_nodup ids.length

theorem Issues.mem (h : inv.Issues left ids) {id : GlobalId} (mem : id ∈ ids) :
    id.domain = inv.domain ∧ id.kind = .reservation := by
  rw [h.ids] at mem
  obtain ⟨n, -, rfl⟩ := List.mem_map.1 mem
  exact ⟨rfl, rfl⟩

/-! ## Commits -/

/-- The claims have been added as allocations, in their order, under the given identifiers. -/
structure Persists (inv left : Inventory) (claims : List (ResourceId × Slot × Usage))
    (ids : List GlobalId) : Prop where
  resources : left.resources = inv.resources
  issues : inv.Issues left ids
  allocations : ∃ added, left.allocations = inv.allocations ++ added
    ∧ added.map Allocation.claim = claims ∧ added.map (·.id) = ids.map fun id => ⟨id.render⟩

theorem Persists.refl (inv : Inventory) : inv.Persists inv [] [] :=
  ⟨rfl, .refl inv, [], (List.append_nil _).symm, rfl, rfl⟩

theorem Persists.trans {claims claims' : List (ResourceId × Slot × Usage)}
    (h : inv.Persists mid claims ids) (h' : mid.Persists left claims' others) :
    inv.Persists left (claims ++ claims') (ids ++ others) where
  resources := h'.resources.trans h.resources
  issues := h.issues.trans h'.issues
  allocations := by
    obtain ⟨added, before, as_claimed, as_named⟩ := h.allocations
    obtain ⟨added', after, as_claimed', as_named'⟩ := h'.allocations
    refine ⟨added ++ added', ?_, ?_, ?_⟩
    · rw [after, before, List.append_assoc]
    · rw [List.map_append, as_claimed, as_claimed']
    · rw [List.map_append, List.map_append, as_named, as_named']

/-- By induction on the claims, each of which takes the next identifier. -/
theorem persists_commitClaims (claims : List (ResourceId × Slot × Usage)) : ∀ inv : Inventory,
    inv.Persists (inv.commitClaims claims).2 claims (inv.commitClaims claims).1 := by
  induction claims with
  | nil => exact fun inv => .refl inv
  | cons claim claims ih =>
    obtain ⟨resource, slot, usage⟩ := claim
    intro inv
    have first : inv.Persists (inv.commitClaims [(resource, slot, usage)]).2
        [(resource, slot, usage)] (inv.commitClaims [(resource, slot, usage)]).1 :=
          ⟨rfl, ⟨rfl, rfl, rfl⟩, [_], rfl, rfl, rfl⟩
    exact first.trans (ih _)

/-- A commit adds the claims of the tree in pre-order. -/
theorem persists_commit (inv : Inventory) (tree : ReservationForest) :
    inv.Persists (inv.commit tree).2 (claimsOf tree) (inv.commit tree).1 :=
  persists_commitClaims (claimsOf tree) inv

/-! ## Inventories in use -/

/-- What may be done to an inventory. -/
inductive Change where
  | addResource (resource : Resource)
  | removeResource (id : ResourceId)
  | addAllocation (allocation : Allocation)
  | commit (tree : ReservationForest)

/-- The identifiers that a change gives out, and what it leaves behind. -/
def change (inv : Inventory) : Change → List GlobalId × Inventory
  | .addResource resource => ([], (inv.addResource resource).2)
  | .removeResource id => ([], (inv.removeResource id).2)
  | .addAllocation allocation => ([], inv.addAllocation allocation)
  | .commit tree => inv.commit tree

/-- Makes changes one after the other. All the identifiers that they give out come with the
result. -/
def changeAll (inv : Inventory) : List Change → List GlobalId × Inventory
  | [] => ([], inv)
  | first :: rest =>
    let one := inv.change first
    let others := changeAll one.2 rest
    (one.1 ++ others.1, others.2)

theorem issues_change (inv : Inventory) (change : Change) :
    inv.Issues (inv.change change).2 (inv.change change).1 := by
  cases change with
  | addResource resource =>
    show inv.Issues (inv.addResource resource).2 []
    unfold addResource
    -- a change that is refused issues no identifier
    split
    · exact .refl inv
    · exact ⟨rfl, rfl, rfl⟩
  | removeResource id =>
    show inv.Issues (inv.removeResource id).2 []
    unfold removeResource
    split
    · exact .refl inv
    · exact ⟨rfl, rfl, rfl⟩
  | addAllocation allocation => exact ⟨rfl, rfl, rfl⟩
  | commit tree => exact (inv.persists_commit tree).issues

/-- Throughout its use an inventory gives out one run of identifiers. -/
theorem issues_changeAll (changes : List Change) : ∀ inv : Inventory,
    inv.Issues (inv.changeAll changes).2 (inv.changeAll changes).1 := by
  induction changes with
  | nil => exact fun inv => .refl inv
  | cons change changes ih => exact fun inv => (inv.issues_change change).trans (ih _)

end Inventory

end Conference
