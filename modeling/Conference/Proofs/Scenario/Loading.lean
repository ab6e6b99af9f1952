import Conference.Proofs.Scenario.Accepted
import Mathlib.Data.List.Nodup

/-!
# What loading yields

The inventory of a loaded scenario is the one that comes of adding what the file declares, one after
the other, to an inventory that is empty. Adding a resource may fail, and nobody looks at whether it
did; it never does, as a file that declares a resource twice is not accepted.
-/

namespace Conference

namespace Inventory

variable {inv : Inventory} {r : Resource}

theorem declares_iff_mem {id : ResourceId} : inv.declares id ↔ id ∈ inv.resources.map (·.id) := by
  simp [declares]

/-- Adds resources one after the other, and says whether each of them was new. -/
def addResources (inv : Inventory) : List Resource → Bool × Inventory
  | [] => (true, inv)
  | r :: rs =>
    let (added, next) := inv.addResource r
    let (rest, last) := next.addResources rs
    (added && rest, last)

theorem addResource_of_new (new : r.id ∉ inv.resources.map (·.id)) :
    inv.addResource r = (true, { inv with resources := inv.resources ++ [r] }) := by
  rw [addResource, if_neg (mt declares_iff_mem.1 new)]

/-- By induction on the resources that are added: those that are there differ from each of them. -/
theorem addResources_of_distinct (rs : List Resource) :
    ∀ inv : Inventory, ((inv.resources ++ rs).map (·.id)).Nodup →
      inv.addResources rs = (true, { inv with resources := inv.resources ++ rs }) := by
  induction rs with
  | nil =>
    intro inv _
    rw [List.append_nil]
    rfl
  | cons r rs ih =>
    intro inv distinct
    -- `r` is the first of those that come behind the resources that are there
    have new : r.id ∉ inv.resources.map (·.id) := by
      rw [List.map_append, List.nodup_append] at distinct
      exact fun there => distinct.2.2 r.id there r.id List.mem_cons_self rfl
    rw [List.append_cons] at distinct ⊢
    rw [addResources, addResource_of_new new]
    dsimp only
    rw [ih _ distinct]
    rfl

theorem foldl_addAllocation (as : List Allocation) :
    ∀ inv : Inventory, as.foldl addAllocation inv
      = { inv with allocations := inv.allocations ++ as } := by
  induction as with
  | nil =>
    intro inv
    rw [List.append_nil]
    rfl
  | cons a as ih =>
    intro inv
    rw [List.foldl_cons, ih, List.append_cons]
    rfl

end Inventory

/-- Lists that correspond, element by element, agree in what the elements have in common. -/
theorem map_of_forall₂ {α β γ : Type} {R : α → β → Prop} {f : α → γ} {g : β → γ}
    (same : ∀ a b, R a b → g b = f a) {as : List α} {bs : List β} (h : List.Forall₂ R as bs) :
    bs.map g = as.map f := by
  induction h with
  | nil => rfl
  | cons first _ ih => rw [List.map_cons, List.map_cons, same _ _ first, ih]

namespace ScenarioFile

/-- The resources of a scenario are named as the file names them. -/
theorem Describes.ids {file : ScenarioFile} {s : Scenario} (h : file.Describes s) :
    s.inventory.resources.map (·.id) = file.declared.map Id.mk := by
  rw [declared, List.map_map]
  exact map_of_forall₂ (fun _ _ described => described.id) h.resources

/-- What a file describes has no resource twice, if the file has none. -/
theorem Describes.distinct {file : ScenarioFile} {s : Scenario} (h : file.Describes s)
    (distinct : file.declared.Nodup) : (s.inventory.resources.map (·.id)).Nodup := by
  rw [h.ids]
  exact distinct.map fun a b same => congrArg Id.text same

end ScenarioFile

namespace Scenario

open Inventory in
/-- The inventory is an empty one, to which its resources and then its allocations have been
added. -/
theorem filled {file : ScenarioFile} {s : Scenario} (valid : file.IsValid) (h : file.Describes s) :
    ∃ stocked, (empty file.domain).addResources s.inventory.resources = (true, stocked)
      ∧ s.inventory.allocations.foldl addAllocation stocked = s.inventory := by
  refine ⟨_, addResources_of_distinct _ _ (h.distinct valid.distinct), ?_⟩
  rw [foldl_addAllocation, empty, ← h.inventory_domain, ← h.committed]
  rfl

/-- Just the valid files are accepted. The scenario is the one that the file describes, and its
inventory is what comes of adding each resource, none of which is refused, and each allocation. -/
theorem accepts_just_valid (file : ScenarioFile) :
    ((∃ s, ofFile file = .ok s) ↔ file.IsValid) ∧ ∀ s, ofFile file = .ok s → file.Describes s
      ∧ ∃ stocked, (Inventory.empty file.domain).addResources s.inventory.resources
        = (true, stocked)
        ∧ s.inventory.allocations.foldl Inventory.addAllocation stocked = s.inventory := by
  have judged := ofFile_judges file
  refine ⟨judged.exists_ok_iff, fun s loaded => ?_⟩
  have described := judged.post_of_ok loaded
  exact ⟨described, filled (judged.exists_ok_iff.1 ⟨s, loaded⟩) described⟩

/-- Two devices with global identifiers and a terminal with a local one, which is in use already. -/
def campus : ScenarioFile where
  domain := "campus"
  workingInterval := ⟨0, 100⟩
  resources :=
    [⟨"conf:campus:res:1", "Conference unit", true, none, [.sip, .h323, .sip],
      [.roomProvider 4, .aliasProvider ["7\x7bdigit:1\x7d"] false
        [⟨.h323E164, "95\x7bvalue\x7d"⟩] false]⟩, ⟨"conf:campus:res:2", "Recorder", true, none, [],
          [.recording 2]⟩, ⟨"desk", "Desk terminal", true, some 50, [.h323], [.terminal []]⟩]
  allocations := [⟨"desk", ⟨-5, 10⟩, .exclusive⟩]
  requests :=
    [⟨"conf:campus:req:7", ⟨1, 5⟩, .room 2 [.h323] (some "conf:campus:res:1")
      [⟨[], [], none, none⟩]⟩, ⟨"r2", ⟨20, 30⟩, .compartment
      [.existing "desk", .external [.sip] 2]⟩]

theorem campus_loads : campus.IsValid ∧ ∃ s, ofFile campus = .ok s ∧ campus.Describes s
    ∧ s.inventory.allocations.map (·.id) = [⟨"existing/0"⟩] := by
  obtain ⟨accepts, yields⟩ := accepts_just_valid campus
  have loaded : ∃ s, ofFile campus = .ok s
      ∧ s.inventory.allocations.map (·.id) = [⟨"existing/0"⟩] := ⟨_, rfl, rfl⟩
  obtain ⟨s, loaded, named⟩ := loaded
  exact ⟨accepts.1 ⟨s, loaded⟩, s, loaded, (yields s loaded).1, named⟩

end Scenario

end Conference
