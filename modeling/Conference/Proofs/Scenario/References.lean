import Conference.Proofs.Identifier.Spelling
import Conference.Proofs.Scenario.Loading
import Conference.Proofs.Lookup
import Conference.Proofs.Registry.Snapshot
import Conference.Scheduler

/-!
# Which resource a name stands for

Resources are told apart by the texts of their identifiers, and a reference is to the resource that
has its very text. A file may spell the local number of a global identifier in more than one way. So
it can declare two resources that are one by their identifiers, and refer to neither of them by a
third spelling. Apart from that, names that differ are those of different entities, and a name of a
declared resource is found.
-/

namespace Conference

/-! ## References -/

def Participant.references : Participant → List ResourceId
  | existing resource => [resource]
  | lookup _ | external _ _ => []

/-- The resources that a specification refers to. -/
def Specification.references : Specification → List ResourceId
  | resource given => [given]
  | room spec => spec.resource.toList ++ spec.aliases.flatMap (·.resource.toList)
  | recording spec => spec.resource.toList
  | dialAlias spec => spec.resource.toList
  | compartment participants => participants.flatMap (·.references)

def Scenario.references (s : Scenario) : List ResourceId :=
  s.inventory.allocations.map (·.resource) ++ s.requests.flatMap (·.specification.references)

namespace ScenarioFile

def ParticipantEntry.references : ParticipantEntry → List String
  | existing resource => [resource]
  | lookup _ | external _ _ => []

def SpecificationEntry.references : SpecificationEntry → List String
  | resource given => [given]
  | room _ _ given aliases => given.toList ++ aliases.flatMap (·.resource.toList)
  | recording _ _ _ given => given.toList
  | dialAlias entry => entry.resource.toList
  | compartment participants => participants.flatMap (·.references)

/-- What a file says in the places where it refers to a resource. -/
def references (file : ScenarioFile) : List String :=
  file.allocations.map (·.resource) ++ file.requests.flatMap (·.specification.references)

theorem flatMap_of_forall₂ {α β : Type} {R : α → β → Prop} {f : α → List String}
    {g : β → List ResourceId} (same : ∀ a b, R a b → g b = (f a).map Id.mk) {as : List α}
    {bs : List β} (h : List.Forall₂ R as bs) :
    bs.flatMap g = (as.flatMap f).map Id.mk := by
  rw [List.map_flatMap, List.flatMap_def, List.flatMap_def, map_of_forall₂ same h]

theorem toList_map_mk (text : Option String) :
    (text.map Id.mk : Option ResourceId).toList = text.toList.map Id.mk := by
  cases text <;> rfl

variable {file : ScenarioFile} {s : Scenario}

theorem AliasEntry.Describes.references {e : AliasEntry} {spec : AliasSpec} (h : e.Describes spec) :
    spec.resource.toList = e.resource.toList.map Id.mk := by
  rw [h.resource, toList_map_mk]

theorem ParticipantEntry.Describes.references {e : ParticipantEntry} {p : Participant}
    (h : e.Describes p) :
    p.references = e.references.map Id.mk := by
  cases e with
  | existing text =>
    cases h
    rfl
  | lookup technologies =>
    obtain ⟨set, rfl, -⟩ := h
    rfl
  | external technologies count =>
    obtain ⟨set, rfl, -⟩ := h
    rfl

theorem SpecificationEntry.Describes.references {e : SpecificationEntry} {spec : Specification}
    (h : e.Describes spec) :
    spec.references = e.references.map Id.mk := by
  cases e with
  | resource text =>
    cases h
    rfl
  | room participants technologies given aliases =>
    obtain ⟨set, specs, rfl, -, described⟩ := h
    -- the room itself first, then the providers of its aliases
    rw [SpecificationEntry.references, List.map_append, ← toList_map_mk,
      ← flatMap_of_forall₂ (fun _ _ asked => asked.references) described]
    rfl
  | recording executable enabled licenses given =>
    obtain ⟨slot, set, rfl, -⟩ := h
    exact toList_map_mk given
  | dialAlias entry =>
    obtain ⟨asked, rfl, described⟩ := h
    exact described.references
  | compartment entries =>
    obtain ⟨participants, rfl, described⟩ := h
    exact flatMap_of_forall₂ (fun _ _ meant => meant.references) described

/-- A scenario refers to resources just where the file does, and by the same texts. -/
theorem Describes.references (h : file.Describes s) : s.references = file.references.map Id.mk := by
  unfold Scenario.references ScenarioFile.references
  have held : s.inventory.allocations.map (·.resource)
      = (file.allocations.map (·.resource)).map Id.mk := by
    rw [← List.zipIdx_map_fst 0 file.allocations, List.map_map, List.map_map]
    exact map_of_forall₂ (fun _ _ described => described.resource) h.allocations
  rw [List.map_append, held,
    flatMap_of_forall₂ (fun _ _ described => described.specification.references) h.requests]

end ScenarioFile

/-! ## Names of declared resources -/

namespace Scenario

open GlobalId (parse isGlobal Respelled)
open ScenarioFile (MayName)

variable {file : ScenarioFile} {s : Scenario} {r r' : Resource}

/-- A global identifier of a declared resource is that of a resource in the domain of the file. -/
theorem identified (valid : file.IsValid) (h : file.Describes s) (mem : r ∈ s.inventory.resources)
    (carries : isGlobal r.id.text) :
    ∃ x, parse r.id.text = .ok x ∧ x.kind = .resource ∧ x.domain = file.domain := by
  have named := List.mem_map_of_mem (f := (·.id)) mem
  rw [h.ids, ScenarioFile.declared, List.map_map] at named
  obtain ⟨e, declared, same⟩ := List.mem_map.1 named
  rw [← same] at carries ⊢
  exact (valid.resources e declared).id carries

/-- A declared resource is found under its own identifier, and under no other. -/
theorem get?_eq_some_iff (valid : file.IsValid) (h : file.Describes s)
    (mem : r ∈ s.inventory.resources) {id : ResourceId} :
    (Scheduler.ofInventory s.inventory).registry.get? id = some r ↔ id = r.id := by
  have distinct := h.distinct valid.distinct
  rw [Registry.get?_eq_find?]
  show (Registry.load _ _).resources.find? _ = some r ↔ _
  rw [Registry.resources_load _ distinct]
  constructor
  · intro found
    exact (beq_iff_eq.1 (List.find?_eq_some_iff_append.1 found).1).symm
  · rintro rfl
    exact find?_key_of_mem distinct mem

/-- A scenario that has been loaded refers to resources where its file does. Two of its resources
have different identifiers unless their texts spell one number in two ways. A reference to the
identifier of a declared resource finds that resource unless it spells the number in another way
than the declaration. -/
theorem apart_unless_respelled (loaded : ofFile file = .ok s) :
    s.references = file.references.map Id.mk
    ∧ (∀ r ∈ s.inventory.resources, ∀ r' ∈ s.inventory.resources, r ≠ r' →
        isGlobal r.id.text → isGlobal r'.id.text → ∃ x x', parse r.id.text = .ok x
          ∧ parse r'.id.text = .ok x'
          ∧ (x = x' ↔ Respelled file.domain .resource r.id.text r'.id.text))
    ∧ ∀ id ∈ s.references, ∀ r ∈ s.inventory.resources, ∀ x, parse id.text = .ok x →
      parse r.id.text = .ok x →
        ((Scheduler.ofInventory s.inventory).registry.get? id = some r
          ↔ ¬ Respelled file.domain .resource id.text r.id.text) := by
  have judged := ofFile_judges file
  have h := judged.post_of_ok loaded
  have valid := judged.exists_ok_iff.1 ⟨s, loaded⟩
  refine ⟨h.references, fun r mem r' mem' differ carries carries' =>
    ?_, fun id _ r mem x parsed parsed' => ?_⟩
  · obtain ⟨x, parsed, kind, domain⟩ := identified valid h mem carries
    obtain ⟨x', parsed', kind', domain'⟩ := identified valid h mem' carries'
    -- no resource is declared twice, so that different ones have different texts
    have apart : r.id.text ≠ r'.id.text := fun same =>
      differ (List.inj_on_of_nodup_map (h.distinct valid.distinct) mem mem' (congrArg Id.mk same))
    refine ⟨x, x', parsed, parsed', ?_⟩
    rw [← domain, ← kind]
    exact GlobalId.eq_iff_respelled parsed parsed' (domain.trans domain'.symm)
      (kind.trans kind'.symm) apart
  · obtain ⟨y, again, kind, domain⟩ := identified valid h mem (GlobalId.isGlobal_of_parse parsed')
    cases parsed'.symm.trans again
    rw [get?_eq_some_iff valid h mem, ← domain, ← kind,
      GlobalId.respelled_iff_ne parsed parsed', not_not]
    exact ⟨congrArg Id.text, congrArg Id.mk⟩

/-- The devices on the campus are apart, and the meeting gets the one that it asks for. -/
theorem campus_names_resolve : ∃ s unit recorder desk, ofFile campus = .ok s
    ∧ s.inventory.resources = [unit, recorder, desk]
    ∧ ¬ Respelled "campus" .resource unit.id.text recorder.id.text
    ∧ unit.id ∈ s.references ∧ (Scheduler.ofInventory s.inventory).registry.get? unit.id
      = some unit := by
  have loaded : ∃ s unit recorder desk, ofFile campus = .ok s
      ∧ s.inventory.resources = [unit, recorder, desk]
      ∧ unit.id = ⟨"conf:campus:res:1"⟩ ∧ recorder.id = ⟨"conf:campus:res:2"⟩
      ∧ unit.id ∈ s.references :=
    ⟨_, _, _, _, rfl, rfl, rfl, rfl, by decide⟩
  obtain ⟨s, unit, recorder, desk, loaded, resources, one, two, refers⟩ := loaded
  have first : unit ∈ s.inventory.resources := resources ▸ .head _
  have second : recorder ∈ s.inventory.resources := resources ▸ .tail _ (.head _)
  have parsed : parse unit.id.text = .ok ⟨"campus", .resource, .number 1⟩ := by
    rw [one]
    decide
  have different : unit.id ≠ recorder.id := by
    rw [one, two]
    decide
  obtain ⟨-, apart, resolves⟩ := apart_unless_respelled loaded
  refine ⟨s, unit, recorder, desk, loaded, resources, ?_, refers, ?_⟩
  · obtain ⟨x, x', read, read', same⟩ :=
      apart unit first recorder second
        (different <| congrArg _ ·) (GlobalId.isGlobal_of_parse parsed) (by rw [two]; decide)
    -- respelled names would be read as the same identifier, but the numbers differ
    refine mt same.2 ?_
    rintro rfl
    rw [one] at read
    rw [two] at read'
    exact absurd (read.trans read'.symm) (by decide)
  · exact (resolves _ refers _ first _ parsed parsed).2 fun respelled => respelled.1 rfl

/-- One number in three spellings: two for the resources, and one for the reference. -/
def respelled : ScenarioFile where
  domain := "d"
  workingInterval := ⟨0, 10⟩
  resources :=
    [⟨"conf:d:res:1", "One", true, none, [], []⟩, ⟨"conf:d:res:01", "Same", true, none, [], []⟩]
  allocations := []
  requests := [⟨"r", ⟨0, 10⟩, .resource "conf:d:res:+1"⟩]

/-- The file is accepted, although its resources are one by their identifiers, and the reference
finds neither. -/
theorem respelled_declares_twice : ∃ s r r' id x, ofFile respelled = .ok s
    ∧ s.inventory.resources = [r, r'] ∧ r ≠ r' ∧ isGlobal r.id.text ∧ isGlobal r'.id.text
    ∧ parse r.id.text = .ok x ∧ parse r'.id.text = .ok x
    ∧ id ∈ s.references ∧ parse id.text = .ok x
    ∧ (Scheduler.ofInventory s.inventory).registry.get? id = none := by
  refine ⟨_, _, _, ⟨"conf:d:res:+1"⟩, ⟨"d", .resource, .number 1⟩, rfl,
    rfl, by decide, by decide, by decide, ?_⟩
  exact ⟨by decide, by decide, by decide, by decide, rfl⟩

end Scenario

end Conference
