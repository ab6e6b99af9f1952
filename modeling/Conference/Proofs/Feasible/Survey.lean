import Conference.Proofs.Feasible.Ground
import Conference.Proofs.Search.Agreement
import Conference.Proofs.Session.Attains

/-!
# Feasible searches

A search that fails stays where it was. Whether it succeeds is decided by the ground and the ledger:
it does if one of the resources that come into question makes an option that fits. The options
before that one fail, and after each of them the next one finds the same ground.
-/

namespace Conference

variable {G : Ground} {base t : Session} {read : List ResourceId}

/-! ## Surveys -/

namespace Survey

theorem eligible_attains (h : base.Stays G read t) (given : Option ResourceId) (slot : Slot)
    (usable : Resource → Bool) (capability : String) :
    (eligible given slot usable capability).Attains t
      (fun ids t' => ids = G.eligible given slot usable ∧ base.Stays G read t')
      fun _ t' => G.eligible given slot usable = [] ∧ base.Stays G read t' := by
  unfold eligible Ground.eligible
  cases given with
  | some id =>
    apply Attempt.Attains.modifyGet_bind
    split
    · rename_i reason refused
      refine Attempt.Attains.refuse ⟨?_, (h.check_error refused).fail reason⟩
      simp only [h.toStands.allowed_of_error refused, Option.any_none]
      rfl
    · rename_i resource passed
      -- the check has had the snapshot read, whether or not it is used further on
      have after : base.Stays G read (t.checkResource id slot).2 :=
        (h.check_ok passed).of_subset (List.subset_cons_self _ _)
      simp only [h.toStands.allowed_of_ok passed, Option.any_some]
      split
      · exact Attempt.Attains.pure ⟨rfl, after⟩
      · exact Attempt.Attains.refuse ⟨rfl, after.fail _⟩
  | none =>
    apply Attempt.Attains.get_bind
    simp only [h.toStands.select]
    split
    · rename_i empty
      exact Attempt.Attains.refuse ⟨empty, h.fail _⟩
    · exact Attempt.Attains.pure ⟨rfl, h⟩

theorem examine_attains (h : base.Stays G read t) (slot : Slot) (dimension : Dimension)
    (id : ResourceId) :
    (examine slot dimension id).Attains t fun found t' =>
      found = G.candidate? base.ledger slot dimension id
        ∧ base.Stays G (found.toList.map (·.resource) ++ read) t' := by
  unfold examine Ground.candidate?
  apply Action.Attains.modify_bind
  have opened := h.report (Session.reporting_openReport (.checkingResource id))
  apply Action.Attains.modifyGet_bind
  split
  · rename_i reason refused
    apply Action.Attains.modify_bind
    apply Action.Attains.modify_bind
    apply Action.Attains.pure
    rw [opened.toStands.allowed_of_error refused]
    refine ⟨rfl, Session.Stays.report Session.reporting_closeError ?_⟩
    exact (opened.check_error refused).report (Session.reporting_addError reason)
  · rename_i r passed
    have checked := opened.check_ok passed
    rw [opened.toStands.allowed_of_ok passed, Option.bind_some]
    apply Action.Attains.ask_bind (checked.used List.mem_cons_self slot dimension)
    simp only
    split
    · apply Action.Attains.modify_bind
      apply Action.Attains.modify_bind
      apply Action.Attains.pure
      refine ⟨rfl, Session.Stays.report Session.reporting_closeError ?_⟩
      exact (checked.report (Session.reporting_addError _)).of_subset (List.subset_cons_self _ _)
    · rename_i free
      apply Action.Attains.get_bind
      -- the usage is below the capacity, so the difference can be taken
      have made : Candidate.make id (G.index id) ((r.capacity? dimension).getD 0)
          (G.load base.ledger id slot dimension)
            = .ok ⟨id, G.index id, (r.capacity? dimension).getD 0,
            (r.capacity? dimension).getD 0 - G.load base.ledger id slot dimension⟩ :=
        if_neg fun more => free (Nat.le_of_lt more)
      rw [checked.toStands.index]
      apply Action.Attains.ask_bind made
      apply Action.Attains.modify_bind
      apply Action.Attains.modify_bind
      apply Action.Attains.pure
      refine ⟨rfl, Session.Stays.report Session.reporting_closeReport ?_⟩
      exact checked.report (Session.reporting_addReport _)

/-- By induction on the resources, each of which finds the same ground. -/
theorem examineAll_attains (slot : Slot) (dimension : Dimension) (ids : List ResourceId) :
    ∀ {read : List ResourceId} {t : Session}, base.Stays G read t →
      (examineAll slot dimension ids).Attains t fun cs t' =>
        cs = ids.filterMap (G.candidate? base.ledger slot dimension)
          ∧ base.Stays G (cs.map (·.resource) ++ read) t' := by
  induction ids with
  | nil => exact fun h => Action.Attains.pure ⟨rfl, h⟩
  | cons id ids ih =>
    intro read t h
    unfold examineAll
    refine Action.Attains.bind (examine_attains h slot dimension id) ?_
    rintro found t' ⟨rfl, stays⟩
    refine Action.Attains.bind (ih stays) ?_
    rintro others t'' ⟨rfl, stays'⟩
    apply Action.Attains.pure
    rw [List.filterMap_cons]
    refine ⟨?_, stays'.of_subset ?_⟩
    · cases G.candidate? base.ledger slot dimension id <;> rfl
    · -- the same resources have been read, listed in another order
      intro r mem
      simp only [List.map_append, List.mem_append] at mem ⊢
      tauto

theorem candidates_attains (h : base.Stays G read t) (given : Option ResourceId) (slot : Slot)
    (dimension : Dimension) (ids : List ResourceId) :
    (candidates given slot dimension ids).Attains t fun cs t' =>
      cs.Perm (ids.filterMap (G.candidate? base.ledger slot dimension))
        ∧ base.Stays G (cs.map (·.resource) ++ read) t' := by
  have surveyed : (available slot dimension ids).Attains t fun cs t' =>
      cs = ids.filterMap (G.candidate? base.ledger slot dimension)
        ∧ base.Stays G (cs.map (·.resource) ++ read) t' := by
    unfold available
    apply Action.Attains.modify_bind
    refine Action.Attains.bind
      (examineAll_attains slot dimension ids (h.report (Session.reporting_openReport _))) ?_
    rintro cs t' ⟨found, stays⟩
    apply Action.Attains.modify_bind
    exact Action.Attains.pure ⟨found, stays.report Session.reporting_closeReport⟩
  unfold candidates
  refine Action.Attains.bind surveyed ?_
  rintro cs t' ⟨rfl, stays⟩
  split
  · -- ranking permutes, so the same resources have been read
    unfold rank
    apply Action.Attains.modify_bind
    have perm := Candidate.rank_perm (ids.filterMap (G.candidate? base.ledger slot dimension))
    refine Action.Attains.pure ⟨perm, (stays.report (Session.reporting_addReport _)).of_subset ?_⟩
    exact List.append_subset.2 ⟨fun r mem => List.mem_append_left _ ((perm.map _).mem_iff.1 mem),
      List.subset_append_right _ _⟩
  · exact Action.Attains.pure ⟨.refl _, stays⟩

end Survey

/-! ## Options in turn -/

/-- Wherever the session has stayed, with some snapshots read, the action finds something just if
`P` holds, and stays there if it does not. -/
def Action.Decides (base : Session) (G : Ground) (read : List ResourceId) (a : Action (Option Nat))
    (P : Prop) : Prop :=
  ∀ t : Session, base.Stays G read t →
    a.Attains t fun found t' => (found.isSome ↔ P) ∧ (found = none → base.Stays G read t')

/-- Wherever the session has stayed, the attempt succeeds just if `P` holds, and stays there if it
does not. -/
def Attempt.Decides (base : Session) (G : Ground) (a : Attempt Nat) (P : Prop) : Prop :=
  ∀ t : Session, base.Stays G [] t →
    a.Attains t (fun _ _ => P) fun _ t' => ¬ P ∧ base.Stays G [] t'

section Options

variable {γ : Type} {tries : List γ → Action (Option Nat)}

theorem InTurn.decides (turns : InTurn tries) {fits : γ → Prop} (cs : List γ)
    (option : ∀ c ∈ cs, (tries [c]).Decides base G read (fits c)) :
    (tries cs).Decides base G read (∃ c ∈ cs, fits c) := by
  induction cs with
  | nil =>
    intro t h
    rw [turns.nil]
    exact Action.Attains.pure ⟨by simp, fun _ => h⟩
  | cons c cs ih =>
    intro t h
    rw [turns.cons]
    refine Action.Attains.bind (option c List.mem_cons_self t h) ?_
    rintro found t' ⟨decided, stays⟩
    cases found with
    | some key =>
      exact Action.Attains.pure
        ⟨⟨fun _ => ⟨c, List.mem_cons_self, decided.1 rfl⟩, fun _ => rfl⟩, nofun⟩
    | none =>
      -- passed over, so it does not fit, and the others decide
      have unfit : ¬ fits c := fun fit => nomatch decided.2 fit
      refine (ih (fun d mem => option d (List.mem_cons_of_mem _ mem)) t' (stays rfl)).mono ?_
      rintro found' t'' ⟨decided', stays'⟩
      refine ⟨decided'.trans ?_, stays'⟩
      rw [List.exists_mem_cons_iff, or_iff_right unfit]

/-- A search among the candidates of a survey succeeds just if one of them fits. -/
theorem Survey.decides {tries : List Candidate → Action (Option Nat)} {slot : Slot}
    {dimension : Dimension} (turns : InTurn tries) {fits : Candidate → Prop}
    (option : ∀ {c : Candidate} {id : ResourceId} {read : List ResourceId},
      G.candidate? base.ledger slot dimension id = some c → c.resource ∈ read →
        (tries [c]).Decides base G read (fits c))
    (given : Option ResourceId) (ids : List ResourceId) :
    (Survey.candidates given slot dimension ids >>= tries).Decides base G []
      (∃ id ∈ ids, ∃ c, G.candidate? base.ledger slot dimension id = some c ∧ fits c) := by
  intro t h
  refine Action.Attains.bind (Survey.candidates_attains h given slot dimension ids) ?_
  rintro cs t' ⟨perm, stays⟩
  -- the order of the candidates does not matter for whether one of them fits
  have among {c : Candidate} : c ∈ cs
      ↔ ∃ id ∈ ids, G.candidate? base.ledger slot dimension id = some c := by
    rw [perm.mem_iff, List.mem_filterMap]
  have tried : (tries cs).Decides base G (cs.map (·.resource) ++ []) (∃ c ∈ cs, fits c) := by
    refine turns.decides cs fun c mem => ?_
    obtain ⟨id, -, made⟩ := among.1 mem
    exact option made (List.mem_append_left _ (List.mem_map_of_mem mem))
  refine (tried t' stays).mono ?_
  rintro found t'' ⟨decided, stays'⟩
  refine ⟨decided.trans ?_, fun nothing => (stays' nothing).of_subset (List.nil_subset _)⟩
  constructor
  · rintro ⟨c, mem, fit⟩
    obtain ⟨id, listed, made⟩ := among.1 mem
    exact ⟨id, listed, c, made, fit⟩
  · rintro ⟨id, listed, c, made, fit⟩
    exact ⟨c, among.2 ⟨id, listed, made⟩, fit⟩

theorem Search.work_eq (search : Search γ) (slot : Slot) (given : Option ResourceId) :
    search.work slot given = (do
      let ids ← Survey.eligible given slot search.usable search.capability
      match ← (search.options given ids >>= search.tries : Action (Option Nat)) with
      | some key => pure key
      | none => search.refuse ids : Attempt Nat) := by
  unfold work
  congr 1
  funext ids
  rw [liftM_bind]
  exact (bind_assoc _ _ _).symm

/-- A search succeeds just if one of the resources that come into question fits. -/
theorem Search.work_decides (search : Search γ) {slot : Slot} {given : Option ResourceId}
    {fits : ResourceId → Prop}
    (options : ∀ ids, (search.options given ids >>= search.tries).Decides base G []
      (∃ id ∈ ids, fits id))
    (refuses : ∀ (ids : List ResourceId) (t : Session), base.Stays G [] t →
      (search.refuse ids).Attains t (fun _ _ => False) fun _ t' => base.Stays G [] t') :
    (search.work slot given).Decides base G
      (∃ id ∈ G.eligible given slot search.usable, fits id) := by
  intro t h
  rw [search.work_eq]
  -- if none is eligible the search is refused, and there is none that fits either
  have eligible : (Survey.eligible given slot search.usable search.capability).Attains t
      (fun ids t' => ids = G.eligible given slot search.usable ∧ base.Stays G [] t')
      fun _ t' => ¬ (∃ id ∈ G.eligible given slot search.usable, fits id) ∧ base.Stays G [] t' := by
    refine (Survey.eligible_attains h given slot search.usable search.capability).mono
      (fun _ _ done => done) ?_
    rintro e t' ⟨none_eligible, stays⟩
    rw [none_eligible]
    exact ⟨(fun ⟨_, mem, _⟩ => nomatch mem), stays⟩
  refine Attempt.Attains.bind eligible ?_
  rintro ids t' ⟨rfl, stays⟩
  refine Attempt.Attains.bind (Attempt.Attains.lift (options _ t' stays)) ?_
  rintro found t'' ⟨decided, after⟩
  cases found with
  | some key => exact Attempt.Attains.pure (decided.1 rfl)
  | none =>
    refine (refuses _ t'' (after rfl)).mono (fun _ _ never => never.elim) fun _ u done => ⟨?_, done⟩
    exact fun fit => nomatch decided.2 fit

end Options

end Conference
