import Conference.Proofs.Session.Ensures

/-!
# What actions and attempts attain

An action that ensures a condition may still run into a fault. It *attains* the condition from a
session if it meets no fault there and ends as the condition says. The rules are those for what is
ensured, only that a value that is asked for has to be there.
-/

namespace Conference

variable {α β : Type}

/-- From `s` the action meets no fault, and its end is as `post` says. -/
def Action.Attains (a : Action α) (s : Session) (post : α → Session → Prop) : Prop :=
  ∃ x s', a s = .ok (x, s') ∧ post x s'

/-- From `s` the attempt meets no fault. Its end is as `ok` says if it succeeds, and as `failed`
says if it does not. -/
def Attempt.Attains (a : Attempt α) (s : Session) (ok : α → Session → Prop)
    (failed : Failure → Session → Prop) : Prop :=
  (Action.outcome a).Attains s (Attempt.Ends ok failed)

/-! ## Deciding by running -/

instance {a : Action α} {s : Session} {post : α → Session → Prop} [∀ x t, Decidable (post x t)] :
    Decidable (a.Attains s post) :=
  match run : a s with
  | .ok (x, t) => decidable_of_iff (post x t) <| by
    constructor
    · exact fun h => ⟨x, t, run, h⟩
    · rintro ⟨y, u, run', h⟩
      rw [run] at run'
      cases run'
      exact h
  | .error fault => isFalse <| by
    rintro ⟨y, u, run', -⟩
    rw [run] at run'
    cases run'

instance {ok : α → Session → Prop} {failed : Failure → Session → Prop} [∀ x t, Decidable (ok x t)]
    [∀ e t, Decidable (failed e t)] : ∀ r t, Decidable (Attempt.Ends ok failed r t)
  | .ok x, t => inferInstanceAs (Decidable (ok x t))
  | .error e, t => inferInstanceAs (Decidable (failed e t))

instance {a : Attempt α} {s : Session} {ok : α → Session → Prop} {failed : Failure → Session → Prop}
    [∀ x t, Decidable (ok x t)] [∀ e t, Decidable (failed e t)] :
    Decidable (a.Attains s ok failed) :=
  inferInstanceAs (Decidable ((Action.outcome a).Attains s (Attempt.Ends ok failed)))

namespace Action.Attains

variable {s : Session} {post : α → Session → Prop}

theorem pure {x : α} (h : post x s) : Action.Attains (Pure.pure x) s post := ⟨x, s, rfl, h⟩

/-- If the first action ends well and the second one ends well from there, so does one after the
other. -/
theorem bind {a : Action α} {f : α → Action β} {mid : α → Session → Prop}
    {post : β → Session → Prop} (ha : a.Attains s mid)
    (hf : ∀ x s', mid x s' → (f x).Attains s' post) : Action.Attains (a >>= f) s post := by
  obtain ⟨x, s', run, h⟩ := ha
  obtain ⟨y, s'', run', h'⟩ := hf x s' h
  refine ⟨y, s'', ?_, h'⟩
  rw [Action.bind_of_ok run]
  exact run'

/-- The condition at the end may be weakened. -/
theorem mono {a : Action α} {post' : α → Session → Prop} (ha : a.Attains s post)
    (h : ∀ x s', post x s' → post' x s') : a.Attains s post' := by
  obtain ⟨x, s', run, hx⟩ := ha
  exact ⟨x, s', run, h x s' hx⟩

/-- There is one run only, so what it attains is ensured. -/
theorem ensures {a : Action α} (ha : a.Attains s post) : a.Ensures s post := by
  obtain ⟨x, s', run, h⟩ := ha
  intro y s'' run'
  rw [run] at run'
  cases run'
  exact h

/-- A mapped result is that of a bind with a pure action. -/
theorem map {a : Action α} {f : α → β} {post : β → Session → Prop}
    (ha : a.Attains s fun x s' => post (f x) s') : Action.Attains (f <$> a) s post := by
  have same : f <$> a = a >>= fun x => Pure.pure (f x) := rfl
  rw [same]
  exact bind ha fun x s' h => pure h

/-! ## A step and what follows it -/

theorem get_bind {k : Session → Action α} (h : (k s).Attains s post) :
    Action.Attains (get >>= k) s post := h

theorem modify_bind {f : Session → Session} {k : PUnit → Action α} (h : (k ⟨⟩).Attains (f s) post) :
    Action.Attains (modify f >>= k) s post := h

theorem modifyGet_bind {f : Session → β × Session} {k : β → Action α}
    (h : (k (f s).1).Attains (f s).2 post) :
    Action.Attains (MonadState.modifyGet f >>= k) s post := h

/-- A question has to be answered for the rest to come to its turn. -/
theorem ask_bind {f : Session → Except Fault β} {k : β → Action α} {y : β} (found : f s = .ok y)
    (h : (k y).Attains s post) : Action.Attains (Action.ask f >>= k) s post := by
  have asked : Action.ask f s = .ok (y, s) := by
    unfold Action.ask
    rw [found]
    rfl
  obtain ⟨x, s', run, hx⟩ := h
  refine ⟨x, s', ?_, hx⟩
  rw [Action.bind_of_ok asked]
  exact run

end Action.Attains

namespace Attempt.Attains

variable {s : Session} {ok : α → Session → Prop} {failed : Failure → Session → Prop}

/-- An attempt that cannot end in a failure succeeds. -/
theorem exists_ok {a : Attempt α} (ha : a.Attains s ok fun _ _ => False) :
    ∃ x s', a s = .ok (.ok x, s') ∧ ok x s' := by
  obtain ⟨r, s', run, h⟩ := ha
  cases r with
  | ok x => exact ⟨x, s', run, h⟩
  | error e => exact h.elim

theorem pure {x : α} (h : ok x s) : Attempt.Attains (Pure.pure x) s ok failed :=
  ⟨.ok x, s, rfl, h⟩

/-- An attempt that fails ends with its failure, and the second one has no turn. Otherwise the
second one decides. -/
theorem bind {a : Attempt α} {f : α → Attempt β} {mid : α → Session → Prop}
    {ok : β → Session → Prop} (ha : a.Attains s mid failed)
    (hf : ∀ x s', mid x s' → (f x).Attains s' ok failed) :
    Attempt.Attains (a >>= f) s ok failed := by
  obtain ⟨r, s', run, h⟩ := ha
  have run : a s = .ok (r, s') := run
  cases r with
  | ok x =>
    obtain ⟨r', s'', run', h'⟩ := hf x s' h
    refine ⟨r', s'', ?_, h'⟩
    rw [Action.outcome, Attempt.bind_of_ok run]
    exact run'
  | error e =>
    refine ⟨.error e, s', ?_, h⟩
    rw [Action.outcome, Attempt.bind_of_error run]

/-- Both conditions may be weakened. -/
theorem mono {a : Attempt α} {ok' : α → Session → Prop} {failed' : Failure → Session → Prop}
    (ha : a.Attains s ok failed) (hok : ∀ x s', ok x s' → ok' x s')
    (hfailed : ∀ e s', failed e s' → failed' e s') : a.Attains s ok' failed' := by
  obtain ⟨r, s', run, h⟩ := ha
  refine ⟨r, s', run, ?_⟩
  cases r with
  | ok x => exact hok x s' h
  | error e => exact hfailed e s' h

/-- A lifted action succeeds with what the action ends with. -/
theorem lift {a : Action α} (ha : a.Attains s ok) : Attempt.Attains (liftM a) s ok failed := by
  have lifted : Action.Attains ((Except.ok : α → Except Failure α) <$> a) s
      (Attempt.Ends ok failed) :=
    Action.Attains.map ha
  exact lifted

/-- A refusal comes to its end as failed. -/
theorem refuse {report : Report} (h : failed (s.fail report).1 (s.fail report).2) :
    Attempt.Attains (Attempt.refuse report : Attempt α) s ok failed :=
  ⟨.error (s.fail report).1, (s.fail report).2, rfl, h⟩

/-! ## A step and what follows it -/

theorem get_bind {k : Session → Attempt α} (h : (k s).Attains s ok failed) :
    Attempt.Attains (get >>= k) s ok failed := h

theorem modifyGet_bind {f : Session → β × Session} {k : β → Attempt α}
    (h : (k (f s).1).Attains (f s).2 ok failed) :
    Attempt.Attains (MonadState.modifyGet f >>= k) s ok failed := h

/-- A question that is answered goes on to the rest in the same session. -/
theorem ask_bind {f : Session → Except Fault β} {k : β → Attempt α} {y : β} (found : f s = .ok y)
    (h : (k y).Attains s ok failed) : Attempt.Attains (Attempt.ask f >>= k) s ok failed := by
  have asked : (Action.ask f).Attains s fun x s' => x = y ∧ s' = s := by
    refine ⟨y, s, ?_, rfl, rfl⟩
    unfold Action.ask
    rw [found]
    rfl
  refine bind (lift asked) ?_
  rintro _ _ ⟨rfl, rfl⟩
  exact h

end Attempt.Attains

end Conference
