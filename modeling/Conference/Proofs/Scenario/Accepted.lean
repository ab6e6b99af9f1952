import Conference.Proofs.Scenario.Judged
import Conference.Proofs.Scenario.Valid

/-!
# Which scenario files are accepted

Each check of a part of a scenario file judges the validity of that part, and gives what the part
describes. So the file as a whole is accepted just if it is valid, and nothing that it says is lost
or put elsewhere.
-/

namespace Conference

open ScenarioFile (MayName Known Lists)

namespace GlobalId

/-- The check of an identifier passes what may name an entity of the kind. -/
theorem check_eq_ok_iff {text domain : String} {kind : GlobalKind} :
    check text domain kind = .ok () ↔ MayName domain kind text := by
  unfold check MayName
  split
  · rename_i carries
    simp only [carries, forall_const]
    cases parse text with
    | error fault => simp
    | ok x =>
      by_cases same : x.kind = kind <;> by_cases own : x.domain = domain <;> simp [same, own]
  · rename_i plain
    simp [plain]

end GlobalId

namespace Scenario

variable {domain : String} {known : List String} {part : ScenarioPart}

/-! ## Slots and identifiers -/

/-- A slot is accepted just if its bounds are in order. -/
theorem slot_judges (part : ScenarioPart) (b : ScenarioFile.Bounds) :
    (slot part b).Judges b.Ordered b.Describes := by
  unfold slot
  cases found : Slot.ofBounds? b.start b.stop with
  | none => exact .error (Int.not_le.2 (Slot.ofBounds?_eq_none.1 found))
  | some s =>
    have same := Slot.ofBounds?_eq_some.1 found
    refine .ok ?_ same
    unfold ScenarioFile.Bounds.Ordered
    rw [← same.1, ← same.2]
    exact s.ordered

/-- An identifier is accepted just if it may name a thing of the kind in the domain. -/
theorem checkId_judges (domain text : String) (kind : GlobalKind) :
    (checkId domain text kind).Judges (MayName domain kind text) fun _ => True := by
  unfold checkId
  cases checked : GlobalId.check text domain kind with
  | ok _ => exact .ok (GlobalId.check_eq_ok_iff.1 checked) trivial
  | error fault =>
    refine .error fun valid => ?_
    rw [GlobalId.check_eq_ok_iff.2 valid] at checked
    cases checked

/-- So is the identifier of a resource, which is kept as it is written. -/
theorem resourceId_judges (domain text : String) :
    (resourceId domain text).Judges (MayName domain .resource text) (· = ⟨text⟩) := by
  have judged : (resourceId domain text).Judges (MayName domain .resource text
      ∧ True) (· = ⟨text⟩) :=
    (checkId_judges domain text .resource).bind fun _ _ _ => .ok trivial rfl
  exact judged.congr (and_iff_left trivial).symm

section Known

variable (named : ∀ text ∈ known, MayName domain .resource text)
include named

/-- As the declared resources may be named, it is enough that a resource is one of them. -/
theorem knownResource_judges (part : ScenarioPart) (text : String) :
    (knownResource domain known part text).Judges (text ∈ known) (· = ⟨text⟩) := by
  have judged : (knownResource domain known part text).Judges
      (MayName domain .resource text ∧ text ∈ known) (· = ⟨text⟩) := by
    refine (resourceId_judges domain text).bind fun id _ same => ?_
    split
    · rename_i mem
      exact .ok (List.contains_iff_mem.1 mem) same
    · rename_i absent
      exact .error fun mem => absent (List.contains_iff_mem.2 mem)
  exact judged.congr ⟨fun mem => ⟨named text mem, mem⟩, And.right⟩

/-- A resource that is named has to be declared. None has to be named. -/
theorem knownResource?_judges (part : ScenarioPart) (text : Option String) :
    (knownResource? domain known part text).Judges (Known known text) (· = text.map Id.mk) := by
  cases text with
  | none => exact .ok nofun rfl
  | some text =>
    refine ((knownResource_judges named part text).map fun id same => ?_).congr ?_
    · rw [same]
      rfl
    · exact ⟨fun all => all text rfl, fun mem _ same => Option.some.inj same ▸ mem⟩

end Known

/-! ## Resources -/

/-- Patterns are all read or the first one that cannot be read is the fault. -/
theorem parsePatterns_eq_ok (sources : List String) :
    ((∃ ps, Pool.parsePatterns sources = .ok ps)
      ↔ ∀ source ∈ sources, ∃ p, Pattern.parse source = .ok p)
    ∧ ∀ ps, Pool.parsePatterns sources = .ok ps →
      List.Forall₂ (fun source p => Pattern.parse source = .ok p) sources ps := by
  induction sources with
  | nil =>
    refine ⟨iff_of_true ⟨[], rfl⟩ nofun, ?_⟩
    rintro _ ⟨⟩
    exact .nil
  | cons source sources ih =>
    rw [List.forall_mem_cons, ← ih.1, Pool.parsePatterns]
    -- the first pattern that cannot be read stops the reading
    cases first : Pattern.parse source with
    | error cause => exact ⟨iff_of_false nofun nofun, nofun⟩
    | ok p =>
      cases rest : Pool.parsePatterns sources with
      | error fault => exact ⟨iff_of_false nofun nofun, nofun⟩
      | ok ps =>
        refine ⟨iff_of_true ⟨_, rfl⟩ ⟨⟨p, rfl⟩, ps, rfl⟩, ?_⟩
        rintro _ ⟨⟩
        exact .cons first (ih.2 ps rest)

/-- A capability is accepted just if its patterns can be read. -/
theorem capability_judges (e : ScenarioFile.CapabilityEntry) :
    (capability e).Judges e.IsValid e.Describes := by
  cases e with
  | roomProvider licenses => exact .ok trivial rfl
  | recording licenses => exact .ok trivial rfl
  | terminal aliases => exact .ok trivial rfl
  | aliasProvider patterns acceptsAny templates restricted =>
    -- only the patterns of a provider can be wrong
    obtain ⟨readable, read⟩ := parsePatterns_eq_ok patterns
    simp only [capability, Pool.parse]
    cases parsed : Pool.parsePatterns patterns with
    | error fault =>
      refine .error fun valid => ?_
      obtain ⟨ps, never⟩ := readable.2 valid
      rw [parsed] at never
      cases never
    | ok ps => exact .ok (readable.1 ⟨ps, parsed⟩) ⟨⟨ps, acceptsAny⟩, rfl, read ps parsed, rfl⟩

theorem lists_ofList {α : Type} [DecidableEq α] [Listed α] (listed : List α) :
    Lists listed (.ofList listed) :=
  fun _ => Selection.mem_ofList

/-- A resource is also refused if its identifier has been declared before. -/
theorem resource_judges (domain : String) (known : List String) (e : ScenarioFile.ResourceEntry) :
    (resource domain known e).Judges (e.IsValid domain ∧ e.id ∉ known) e.Describes := by
  have judged : (resource domain known e).Judges (MayName domain .resource e.id ∧ e.id ∉ known
      ∧ ∀ c ∈ e.capabilities, c.IsValid) e.Describes := by
    refine (resourceId_judges domain e.id).bind fun id _ same => ?_
    split
    · rename_i mem
      exact .error fun valid => valid.1 (List.contains_iff_mem.1 mem)
    · rename_i absent
      refine ((checkAll_judges capability_judges e.capabilities).bind
        fun capabilities _ described =>
        .last ⟨same, rfl, rfl, rfl, lists_ofList _, described⟩).congr ?_
      rw [and_true, and_iff_right fun mem => absent (List.contains_iff_mem.2 mem)]
  -- the statement groups the conditions by what they are about, the check by their order
  refine judged.congr ⟨?_, ?_⟩
  · exact fun ⟨valid, new⟩ => ⟨valid.id, new, valid.capabilities⟩
  · exact fun ⟨id, new, capabilities⟩ => ⟨⟨id, capabilities⟩, new⟩

/-- By induction on the resources: each is compared with those before it. -/
theorem resources_judges (domain : String) (es : List ScenarioFile.ResourceEntry) :
    ∀ known : List String, (resources domain known es).Judges
      ((∀ e ∈ es, e.IsValid domain) ∧ (es.map (·.id)).Nodup ∧ ∀ e ∈ es, e.id ∉ known)
      (List.Forall₂ ScenarioFile.ResourceEntry.Describes es) := by
  induction es with
  | nil => exact fun _ => .ok ⟨nofun, List.nodup_nil, nofun⟩ .nil
  | cons e es ih =>
    intro known
    refine ((resource_judges domain known e).bind fun r _ described =>
      (ih (e.id :: known)).bind fun rs _ others => .last (.cons described others)).congr ?_
    rw [List.forall_mem_cons, List.forall_mem_cons, List.map_cons, List.nodup_cons, and_true]
    constructor
    · rintro ⟨⟨valid, valids⟩, ⟨new, distinct⟩, absent, absents⟩
      refine ⟨⟨valid, absent⟩, valids, distinct, fun other mem => ?_⟩
      rintro among
      rcases List.mem_cons.1 among with same | before
      · -- an identifier is new against the ones declared before, and against the ones to come
        exact new (same ▸ List.mem_map_of_mem mem)
      · exact absents other mem before
    · rintro ⟨⟨valid, absent⟩, valids, distinct, absents⟩
      refine ⟨⟨valid, valids⟩, ⟨fun again => ?_, distinct⟩, absent, fun other mem before => ?_⟩
      · obtain ⟨other, mem, same⟩ := List.mem_map.1 again
        exact absents other mem (same ▸ List.mem_cons_self)
      · exact absents other mem (List.mem_cons_of_mem _ before)

/-! ## Allocations and requests -/

section Entries

variable (named : ∀ text ∈ known, MayName domain .resource text)
include named

/-- An allocation is accepted just if its resource is declared and its slot in order. -/
theorem allocation_judges (index : Nat) (e : ScenarioFile.AllocationEntry) :
    (allocation domain known index e).Judges (e.IsValid known) (e.Describes index) := by
  refine ((knownResource_judges named (.allocation index) e.resource).bind fun id _ same =>
    (slot_judges (.allocation index) e.slot).bind fun s _ bounds =>
      .last ⟨rfl, same, bounds, rfl⟩).congr ?_
  rw [and_true]
  exact ⟨fun valid => ⟨valid.resource, valid.slot⟩, fun both => ⟨both.1, both.2⟩⟩

/-- By induction on the allocations, which are numbered as they come. -/
theorem allocations_judges (es : List ScenarioFile.AllocationEntry) :
    ∀ index : Nat, (allocations domain known index es).Judges (∀ e ∈ es, e.IsValid known)
      (List.Forall₂ (fun p a => p.1.Describes p.2 a) (es.zipIdx index)) := by
  induction es with
  | nil => exact fun _ => .ok nofun .nil
  | cons e es ih =>
    intro index
    refine ((allocation_judges named index e).bind fun a _ described =>
      (ih (index + 1)).bind fun as _ others => .last (.cons described others)).congr ?_
    rw [List.forall_mem_cons, and_true]

/-- An alias is accepted just if the provider it names is declared. -/
theorem aliasSpec_judges (part : ScenarioPart) (e : ScenarioFile.AliasEntry) :
    (aliasSpec domain known part e).Judges (Known known e.resource) e.Describes :=
  ((knownResource?_judges named part e.resource).bind fun _ _ same =>
    .last ⟨lists_ofList _, lists_ofList _, rfl, same⟩).congr ⟨fun valid =>
      ⟨valid, trivial⟩, And.left⟩

/-- A participant is accepted just if the resource is declared or somebody comes. -/
theorem participant_judges (part : ScenarioPart) (e : ScenarioFile.ParticipantEntry) :
    (participant domain known part e).Judges (e.IsValid known) e.Describes := by
  cases e with
  | existing text =>
    exact (knownResource_judges named part text).map fun _ same =>
      congrArg Participant.existing same
  | lookup technologies => exact .ok trivial ⟨_, rfl, lists_ofList technologies⟩
  | external technologies count =>
    rw [participant]
    split
    · -- an external endpoint stands for one at least
      rename_i nobody
      exact .error (Nat.not_lt.2 (Nat.le_of_eq nobody))
    · rename_i somebody
      exact .ok (Nat.pos_of_ne_zero somebody) ⟨_, rfl, lists_ofList technologies⟩

/-- A specification is accepted just if all parts of it are. -/
theorem specification_judges (part : ScenarioPart) (e : ScenarioFile.SpecificationEntry) :
    (specification domain known part e).Judges (e.IsValid domain known) e.Describes := by
  cases e with
  | resource text =>
    exact (resourceId_judges domain text).map fun _ same => congrArg Specification.resource same
  | room participants technologies resource aliases =>
    refine ((knownResource?_judges named part resource).bind fun id _ same =>
      (checkAll_judges (aliasSpec_judges named part) aliases).bind fun specs _ described =>
        .last ⟨_, specs, by rw [same], lists_ofList technologies, described⟩).congr ?_
    rw [and_true]
    rfl
  | recording executable enabled licenses resource =>
    refine ((checkId_judges domain executable.id .executable).bind fun _ _ _ =>
      (slot_judges part executable.slot).bind fun s _ bounds =>
        (knownResource?_judges named part resource).bind fun id _ same =>
          .last ⟨s, _, by rw [same], bounds, lists_ofList executable.technologies⟩).congr ?_
    rw [and_true]
    rfl
  | dialAlias entry =>
    exact (aliasSpec_judges named part entry).map fun asked described => ⟨asked, rfl, described⟩
  | compartment participants =>
    exact (checkAll_judges (participant_judges named part) participants).map fun ps described =>
      ⟨ps, rfl, described⟩

/-- A request is accepted just if its identifier, its slot and its specification are. -/
theorem request_judges (e : ScenarioFile.RequestEntry) :
    (request domain known e).Judges (e.IsValid domain known) e.Describes := by
  refine ((checkId_judges domain e.id .request).bind fun _ _ _ =>
    (slot_judges (.request e.id) e.slot).bind fun s _ bounds =>
      (specification_judges named (.request e.id) e.specification).bind fun spec _ described =>
        .last ⟨rfl, bounds, described⟩).congr ?_
  rw [and_true]
  exact ⟨fun valid => ⟨valid.id, valid.slot, valid.specification⟩, fun all =>
    ⟨all.1, all.2.1, all.2.2⟩⟩

end Entries

/-! ## Whole files -/

/-- A domain is a text that is not empty and has no colon. -/
theorem isDomain_iff {text : String} : isDomain text ↔ text ≠ "" ∧ ':' ∉ text.toList := by
  unfold isDomain
  rw [Bool.and_eq_true, Bool.not_eq_true', Bool.not_eq_true', Bool.eq_false_iff, Bool.eq_false_iff,
    Ne, Ne, String.isEmpty_iff, List.contains_iff_mem]

/-- A file is accepted just if it is valid, and gives a scenario that it describes. -/
theorem ofFile_judges (file : ScenarioFile) : (ofFile file).Judges file.IsValid file.Describes := by
  unfold ofFile
  split
  · rename_i domain
    obtain ⟨domain_ne, domain_colon⟩ := isDomain_iff.1 domain
    refine (?_ : Checked.Judges _ (file.workingInterval.Ordered
      ∧ ((∀ e ∈ file.resources, e.IsValid file.domain) ∧ file.declared.Nodup
        ∧ ∀ e ∈ file.resources, e.id ∉ [])
      ∧ (∀ e ∈ file.allocations, e.IsValid file.declared)
      ∧ (∀ e ∈ file.requests, e.IsValid file.domain file.declared) ∧ True) _).congr ?_
    · refine (slot_judges .workingInterval file.workingInterval).bind fun interval _ bounds => ?_
      refine (resources_judges file.domain file.resources []).bind fun rs valid described => ?_
      -- from here on it is enough to look for a reference among the declared identifiers
      have named : ∀ text ∈ file.declared, MayName file.domain .resource text := by
        intro text mem
        obtain ⟨e, he, rfl⟩ := List.mem_map.1 mem
        exact (valid.1 e he).id
      refine (allocations_judges named file.allocations 0).bind fun as _ allocated => ?_
      refine (checkAll_judges (request_judges named) file.requests).bind
        fun requests _ requested => ?_
      exact .last ⟨rfl, bounds, rfl, described, allocated, rfl, requested⟩
    · constructor
      · exact fun valid => ⟨valid.workingInterval, ⟨valid.resources, valid.distinct, fun _ _ =>
          List.not_mem_nil⟩, valid.allocations, valid.requests, trivial⟩
      · exact fun ⟨interval, ⟨resources, distinct, _⟩, allocations, requests, _⟩ =>
          ⟨domain_ne, domain_colon, interval, resources, distinct, allocations, requests⟩
  · rename_i domain
    exact .error fun valid => domain (isDomain_iff.2 ⟨valid.domain_ne, valid.domain_colon⟩)

end Scenario

end Conference
