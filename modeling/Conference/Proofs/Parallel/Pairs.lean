import Conference.Proofs.Session.Ensures

/-!
# Pairs of runs

Rules to reason about two runs at once, each from a session of its own. Two actions *pair up* from
two sessions when either both come to an end, in a way that the postcondition relates, or both meet
the same fault. The faults that may be met are named, so that a pairing that allows none also says
that both runs come to an end. The rules follow those for single runs, and what is known of the left
run alone can be brought in.
-/

namespace Conference

variable {α β γ δ : Type}

/-- Both runs end as `post` says, or both meet the same fault, one that is allowed. -/
def Action.Pairs (allowed : Fault → Prop) (a : Action α) (s : Session) (b : Action β) (t : Session)
    (post : α → Session → β → Session → Prop) : Prop :=
  (∃ x s' y t', a s = .ok (x, s') ∧ b t = .ok (y, t') ∧ post x s' y t')
    ∨ ∃ fault, allowed fault ∧ a s = .error fault ∧ b t = .error fault

/-- Both attempts succeed or both fail, with a condition for each case. -/
def Attempt.Meet (ok : α → Session → β → Session → Prop)
    (failed : Failure → Session → Failure → Session → Prop) :
    Except Failure α → Session → Except Failure β → Session → Prop
  | .ok x, s, .ok y, t => ok x s y t
  | .error e, s, .error e', t => failed e s e' t
  | _, _, _, _ => False

def Attempt.Pairs (allowed : Fault → Prop) (a : Attempt α) (s : Session) (b : Attempt β)
    (t : Session) (ok : α → Session → β → Session → Prop)
    (failed : Failure → Session → Failure → Session → Prop) :
    Prop :=
  (Action.outcome a).Pairs allowed s (Action.outcome b) t (Attempt.Meet ok failed)

variable {allowed : Fault → Prop} {s t : Session}

namespace Action.Pairs

variable {post : α → Session → β → Session → Prop}

/-- Two actions that do nothing meet if their results do where they are. -/
theorem pure {x : α} {y : β} (h : post x s y t) :
    Action.Pairs allowed (Pure.pure x) s (Pure.pure y) t post :=
  Or.inl ⟨x, s, y, t, rfl, rfl, h⟩

/-- Paired actions are followed by paired actions. A fault that both end in ends the whole of
both. -/
theorem bind {a : Action α} {b : Action β} {f : α → Action γ} {g : β → Action δ}
    {post : γ → Session → δ → Session → Prop} {mid : α → Session → β → Session → Prop}
    (h : a.Pairs allowed s b t mid)
    (k : ∀ x s' y t', mid x s' y t' → (f x).Pairs allowed s' (g y) t' post) :
    Action.Pairs allowed (a >>= f) s (b >>= g) t post := by
  have left : (a >>= f) s = a s >>= fun p => f p.1 p.2 := rfl
  have right : (b >>= g) t = b t >>= fun p => g p.1 p.2 := rfl
  unfold Action.Pairs
  rw [left, right]
  rcases h with ⟨x, s', y, t', ha, hb, related⟩ | ⟨fault, may, ha, hb⟩
  · rw [ha, hb]
    exact k x s' y t' related
  · rw [ha, hb]
    exact Or.inr ⟨fault, may, rfl, rfl⟩

/-- A postcondition may be weakened. -/
theorem mono {a : Action α} {b : Action β} {post' : α → Session → β → Session → Prop}
    (h : a.Pairs allowed s b t post) (weaken : ∀ x s' y t', post x s' y t' → post' x s' y t') :
    a.Pairs allowed s b t post' := by
  rcases h with ⟨x, s', y, t', ha, hb, related⟩ | faulty
  · exact Or.inl ⟨x, s', y, t', ha, hb, weaken x s' y t' related⟩
  · exact Or.inr faulty

/-- Whatever the left run ensures by itself holds of it in the pair, too. -/
theorem with_left {a : Action α} {b : Action β} {alone : α → Session → Prop}
    (ensured : a.Ensures s alone) (h : a.Pairs allowed s b t post) :
    a.Pairs allowed s b t fun x s' y t' => alone x s' ∧ post x s' y t' := by
  rcases h with ⟨x, s', y, t', ha, hb, related⟩ | faulty
  · exact Or.inl ⟨x, s', y, t', ha, hb, ensured x s' ha, related⟩
  · exact Or.inr faulty

/-- Where no fault is allowed, what the right run comes to has its like on the left. -/
theorem exists_left {a : Action α} {b : Action β} {y : β} {t' : Session}
    (h : a.Pairs (fun _ => False) s b t post) (run : b t = .ok (y, t')) :
    ∃ x s', a s = .ok (x, s') ∧ post x s' y t' := by
  rcases h with ⟨x, s', y', u, ha, hb, related⟩ | ⟨_, never, -, -⟩
  · rw [run] at hb
    cases hb
    exact ⟨x, s', ha, related⟩
  · exact never.elim

theorem map {a : Action α} {b : Action β} {f : α → γ} {g : β → δ}
    {post : γ → Session → δ → Session → Prop}
    (h : a.Pairs allowed s b t fun x s' y t' => post (f x) s' (g y) t') :
    Action.Pairs allowed (f <$> a) s (g <$> b) t post := by
  have left : f <$> a = a >>= fun x => Pure.pure (f x) := rfl
  have right : g <$> b = b >>= fun y => Pure.pure (g y) := rfl
  rw [left, right]
  exact bind h fun x s' y t' related => pure related

/-- A step that only computes meets what its result meets. -/
theorem modifyGet {f : Session → α × Session} {g : Session → β × Session}
    (h : post (f s).1 (f s).2 (g t).1 (g t).2) :
    Action.Pairs allowed (MonadState.modifyGet f) s (MonadState.modifyGet g) t post :=
  Or.inl ⟨(f s).1, (f s).2, (g t).1, (g t).2, rfl, rfl, h⟩

/-- Two questions that are answered change nothing. -/
theorem ask {f : Session → Except Fault α} {g : Session → Except Fault β} {x : α} {y : β}
    (left : f s = .ok x) (right : g t = .ok y) :
    (Action.ask f).Pairs allowed s (Action.ask g) t fun x' s' y' t' =>
      x' = x ∧ s' = s ∧ y' = y ∧ t' = t := by
  refine Or.inl ⟨x, s, y, t, ?_, ?_, rfl, rfl, rfl, rfl⟩
  · rw [Action.ask, left]
    rfl
  · rw [Action.ask, right]
    rfl

/-- Two changes that succeed. -/
theorem change {f g : Session → Except Fault Session} {s' t' : Session} (left : f s = .ok s')
    (right : g t = .ok t') :
    (Action.change f).Pairs allowed s (Action.change g) t fun _ s'' _ t'' =>
      s'' = s' ∧ t'' = t' := by
  refine Or.inl ⟨⟨⟩, s', ⟨⟩, t', ?_, ?_, rfl, rfl⟩
  · rw [Action.change, left]
    rfl
  · rw [Action.change, right]
    rfl

/-! ## A step of both runs and what follows it -/

variable {k : Session → Action α} {k' : Session → Action β}

theorem get_bind (h : (k s).Pairs allowed s (k' t) t post) :
    Action.Pairs allowed (get >>= k) s (get >>= k') t post := h

theorem modify_bind {f g : Session → Session} {k : PUnit → Action α} {k' : PUnit → Action β}
    (h : (k ⟨⟩).Pairs allowed (f s) (k' ⟨⟩) (g t) post) :
    Action.Pairs allowed (modify f >>= k) s (modify g >>= k') t post := h

theorem modifyGet_bind {f : Session → γ × Session} {g : Session → δ × Session} {k : γ → Action α}
    {k' : δ → Action β} (h : (k (f s).1).Pairs allowed (f s).2 (k' (g t).1) (g t).2 post) :
    Action.Pairs allowed (MonadState.modifyGet f >>= k) s (MonadState.modifyGet g >>= k') t post :=
      h

theorem ask_bind {f : Session → Except Fault γ} {g : Session → Except Fault δ} {k : γ → Action α}
    {k' : δ → Action β} {x : γ} {y : δ} (left : f s = .ok x) (right : g t = .ok y)
    (h : (k x).Pairs allowed s (k' y) t post) :
    Action.Pairs allowed (Action.ask f >>= k) s (Action.ask g >>= k') t post := by
  refine bind (ask left right) ?_
  rintro x' s' y' t' ⟨rfl, rfl, rfl, rfl⟩
  exact h

theorem change_bind {f g : Session → Except Fault Session} {k : PUnit → Action α}
    {k' : PUnit → Action β} {s' t' : Session} (left : f s = .ok s') (right : g t = .ok t')
    (h : (k ⟨⟩).Pairs allowed s' (k' ⟨⟩) t' post) :
    Action.Pairs allowed (Action.change f >>= k) s (Action.change g >>= k') t post := by
  refine bind (change left right) ?_
  rintro _ s'' _ t'' ⟨rfl, rfl⟩
  exact h

/-- Attempts the outcome of which is a value: both come to what follows success, or both to what
follows failure. -/
theorem outcome_bind {a : Attempt γ} {b : Attempt δ} {f : Except Failure γ → Action α}
    {g : Except Failure δ → Action β} {ok : γ → Session → δ → Session → Prop}
    {failed : Failure → Session → Failure → Session → Prop}
    (h : (Action.outcome a).Pairs allowed s (Action.outcome b) t (Attempt.Meet ok failed))
    (hok : ∀ x s' y t', ok x s' y t' → (f (.ok x)).Pairs allowed s' (g (.ok y)) t' post)
    (hfailed : ∀ e s' e' t', failed e s' e' t' →
      (f (.error e)).Pairs allowed s' (g (.error e')) t' post) :
    Action.Pairs allowed (Action.outcome a >>= f) s (Action.outcome b >>= g) t post := by
  refine bind h ?_
  intro r s' r' t' met
  cases r with
  | ok x =>
    cases r' with
    | ok y => exact hok x s' y t' met
    -- one succeeding where the other fails is ruled out
    | error _ => exact met.elim
  | error e =>
    cases r' with
    | ok _ => exact met.elim
    | error e' => exact hfailed e s' e' t' met

end Action.Pairs

namespace Attempt.Pairs

variable {ok : α → Session → β → Session → Prop}
  {failed : Failure → Session → Failure → Session → Prop}

theorem of_action {a : Action (Except Failure α)} {b : Action (Except Failure β)}
    (h : a.Pairs allowed s b t (Attempt.Meet ok failed)) :
    Attempt.Pairs allowed (ExceptT.mk a) s (ExceptT.mk b) t ok failed := h

/-- Two results of an attempt. -/
theorem pure {x : α} {y : β} (h : ok x s y t) :
    Attempt.Pairs allowed (Pure.pure x) s (Pure.pure y) t ok failed :=
  Or.inl ⟨.ok x, s, .ok y, t, rfl, rfl, h⟩

/-- Two attempts that give up. -/
theorem throw {e e' : Failure} (h : failed e s e' t) :
    Attempt.Pairs allowed (MonadExcept.throw e : Attempt α) s
      (MonadExcept.throw e' : Attempt β) t ok
      failed :=
  Or.inl ⟨.error e, s, .error e', t, rfl, rfl, h⟩

/-- Attempts that are paired either both go on or both give up, so only the results have to be
followed. -/
theorem bind {a : Attempt α} {b : Attempt β} {f : α → Attempt γ} {g : β → Attempt δ}
    {ok : γ → Session → δ → Session → Prop} {mid : α → Session → β → Session → Prop}
    (h : a.Pairs allowed s b t mid failed)
    (k : ∀ x s' y t', mid x s' y t' → (f x).Pairs allowed s' (g y) t' ok failed) :
    Attempt.Pairs allowed (a >>= f) s (b >>= g) t ok failed := by
  refine Action.Pairs.bind h ?_
  intro r s' r' t' related
  -- the outcomes agree, so the mixed cases do not arise
  cases r with
  | ok x =>
    cases r' with
    | ok y => exact k x s' y t' related
    | error _ => exact related.elim
  | error e =>
    cases r' with
    | ok _ => exact related.elim
    | error e' => exact Action.Pairs.pure related

theorem mono {a : Attempt α} {b : Attempt β} {ok' : α → Session → β → Session → Prop}
    {failed' : Failure → Session → Failure → Session → Prop} (h : a.Pairs allowed s b t ok failed)
    (hok : ∀ x s' y t', ok x s' y t' → ok' x s' y t')
    (hfailed : ∀ e s' e' t', failed e s' e' t' → failed' e s' e' t') :
    a.Pairs allowed s b t ok' failed' := by
  refine Action.Pairs.mono h fun r s' r' t' related => ?_
  cases r <;> cases r'
  · exact hfailed _ _ _ _ related
  · exact related
  · exact related
  · exact hok _ _ _ _ related

/-- What the left attempt ensures on its own may be used for the pair. -/
theorem with_left {a : Attempt α} {b : Attempt β} {ok₁ : α → Session → Prop}
    {failed₁ : Failure → Session → Prop} (ensured : a.Ensures s ok₁ failed₁)
    (h : a.Pairs allowed s b t ok failed) :
    a.Pairs allowed s b t (fun x s' y t' => ok₁ x s' ∧ ok x s' y t')
      fun e s' e' t' => failed₁ e s' ∧ failed e s' e' t' := by
  refine Action.Pairs.mono (Action.Pairs.with_left ensured h) fun r s' r' t' both => ?_
  cases r <;> cases r'
  · exact both
  · exact both.2
  · exact both.2
  · exact both

/-- Where only success counts, what the left run ensures by itself need not be kept for failures. -/
theorem with_left_ok {a : Attempt α} {b : Attempt β} {ok₁ : α → Session → Prop}
    {failed₁ : Failure → Session → Prop} (ensured : a.Ensures s ok₁ failed₁)
    (h : a.Pairs allowed s b t ok failed) :
    a.Pairs allowed s b t (fun x s' y t' => ok₁ x s' ∧ ok x s' y t') failed :=
  (h.with_left ensured).mono (fun _ _ _ _ both => both) fun _ _ _ _ both => both.2

/-- Actions that cannot fail are paired as attempts. -/
theorem lift {a : Action α} {b : Action β} (h : a.Pairs allowed s b t ok) :
    Attempt.Pairs allowed (liftM a) s (liftM b) t ok failed := by
  have lifted : Action.Pairs allowed ((Except.ok : α → Except Failure α) <$> a) s
      ((Except.ok : β → Except Failure β) <$> b) t (Attempt.Meet ok failed) := Action.Pairs.map h
  exact lifted

theorem modifyGet {f : Session → α × Session} {g : Session → β × Session}
    (h : ok (f s).1 (f s).2 (g t).1 (g t).2) :
    Attempt.Pairs allowed (MonadState.modifyGet f) s (MonadState.modifyGet g) t ok failed :=
  Or.inl ⟨.ok (f s).1, (f s).2, .ok (g t).1, (g t).2, rfl, rfl, h⟩

/-- Two refusals record a report each and give up. -/
theorem refuse {report report' : Report}
    (h : failed (s.fail report).1 (s.fail report).2 (t.fail report').1 (t.fail report').2) :
    Attempt.Pairs allowed (Attempt.refuse report : Attempt α) s
      (Attempt.refuse report' : Attempt β) t ok
      failed := by
  have failing : Attempt.Pairs allowed (MonadState.modifyGet (·.fail report)) s
      (MonadState.modifyGet (·.fail report')) t failed failed := modifyGet h
  refine bind failing ?_
  intro e s' e' t' related
  exact throw related

/-! ## A step of both runs and what follows it -/

theorem get_bind {k : Session → Attempt α} {k' : Session → Attempt β}
    (h : (k s).Pairs allowed s (k' t) t ok failed) :
    Attempt.Pairs allowed (get >>= k) s (get >>= k') t ok failed := h

theorem modify_bind {f g : Session → Session} {k : PUnit → Attempt α} {k' : PUnit → Attempt β}
    (h : (k ⟨⟩).Pairs allowed (f s) (k' ⟨⟩) (g t) ok failed) :
    Attempt.Pairs allowed (modify f >>= k) s (modify g >>= k') t ok failed := h

theorem modifyGet_bind {f : Session → γ × Session} {g : Session → δ × Session} {k : γ → Attempt α}
    {k' : δ → Attempt β} (h : (k (f s).1).Pairs allowed (f s).2 (k' (g t).1) (g t).2 ok failed) :
    Attempt.Pairs allowed (MonadState.modifyGet f >>= k) s
      (MonadState.modifyGet g >>= k') t ok failed := h

theorem ask_bind {f : Session → Except Fault γ} {g : Session → Except Fault δ} {k : γ → Attempt α}
    {k' : δ → Attempt β} {x : γ} {y : δ} (left : f s = .ok x) (right : g t = .ok y)
    (h : (k x).Pairs allowed s (k' y) t ok failed) :
    Attempt.Pairs allowed (Attempt.ask f >>= k) s (Attempt.ask g >>= k') t ok failed := by
  refine bind (lift (Action.Pairs.ask left right)) ?_
  rintro x' s' y' t' ⟨rfl, rfl, rfl, rfl⟩
  exact h

/-- Two questions that end in the same fault. -/
theorem ask_fault {f : Session → Except Fault γ} {g : Session → Except Fault δ} {k : γ → Attempt α}
    {k' : δ → Attempt β} {fault : Fault} (may : allowed fault) (left : f s = .error fault)
    (right : g t = .error fault) :
    Attempt.Pairs allowed (Attempt.ask f >>= k) s (Attempt.ask g >>= k') t ok failed := by
  have asked : (Action.ask f).Pairs allowed s (Action.ask g) t fun _ _ _ _ => False := by
    refine Or.inr ⟨fault, may, ?_, ?_⟩
    · rw [Action.ask, left]
      rfl
    · rw [Action.ask, right]
      rfl
  exact bind (lift asked) fun _ _ _ _ never => never.elim

theorem change_bind {f g : Session → Except Fault Session} {k : PUnit → Attempt α}
    {k' : PUnit → Attempt β} {s' t' : Session} (left : f s = .ok s') (right : g t = .ok t')
    (h : (k ⟨⟩).Pairs allowed s' (k' ⟨⟩) t' ok failed) :
    Attempt.Pairs allowed (liftM (Action.change f) >>= k) s (liftM (Action.change g) >>= k') t ok
      failed := by
  refine bind (lift (Action.Pairs.change left right)) ?_
  rintro _ s'' _ t'' ⟨rfl, rfl⟩
  exact h

end Attempt.Pairs

end Conference
