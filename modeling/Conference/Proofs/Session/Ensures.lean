import Conference.Session

/-!
# What actions and attempts ensure

Rules to reason about allocations step by step. An action *ensures* a condition from a session when
each of its ends that meets no fault satisfies it; an attempt ensures one condition for success and
another one for failure. There is one rule for each way to put allocations together, so no proof
about an allocation has to look into the layers of effects. The rules for a step that is followed by
others, such as `modify_bind`, move on to the session after it.
-/

namespace Conference

variable {α β : Type}

/-- Each end of the action, from `s`, that meets no fault is as `post` says. -/
def Action.Ensures (a : Action α) (s : Session) (post : α → Session → Prop) : Prop :=
  ∀ x s', a s = .ok (x, s') → post x s'

/-- One condition for the end of an attempt that succeeds, and one for that of an attempt that
fails. -/
def Attempt.Ends (ok : α → Session → Prop) (failed : Failure → Session → Prop) :
    Except Failure α → Session → Prop
  | .ok x, s => ok x s
  | .error e, s => failed e s

/-- An outcome that meets two pairs of conditions meets both of each pair. -/
theorem Attempt.Ends.and {ok ok' : α → Session → Prop} {failed failed' : Failure → Session → Prop}
    {r : Except Failure α} {s : Session} (h : Ends ok failed r s) (h' : Ends ok' failed' r s) :
    Ends (fun x s => ok x s ∧ ok' x s) (fun e s => failed e s ∧ failed' e s) r s := by
  cases r with
  | ok x => exact ⟨h, h'⟩
  | error e => exact ⟨h, h'⟩

/-- Each end of the attempt, from `s`, that meets no fault is as `ok` says if it succeeds, and as
`failed` says if it does not. -/
def Attempt.Ensures (a : Attempt α) (s : Session) (ok : α → Session → Prop)
    (failed : Failure → Session → Prop) : Prop :=
  (Action.outcome a).Ensures s (Attempt.Ends ok failed)

namespace Action.Ensures

variable {s : Session} {post : α → Session → Prop}

theorem pure {x : α} (h : post x s) : Action.Ensures (Pure.pure x) s post := by
  intro y s' run
  cases run
  exact h

/-- A run of two actions splits into a run of the first one, which establishes the condition in the
middle, and one of the second. If the first one meets a fault there is no run. -/
theorem bind {a : Action α} {f : α → Action β} {mid : α → Session → Prop}
    {post : β → Session → Prop} (ha : a.Ensures s mid)
    (hf : ∀ x s', mid x s' → (f x).Ensures s' post) : Action.Ensures (a >>= f) s post := by
  intro y s' run
  -- the bind of the state is the bind of the faults, with result and session in a pair
  have run' : (a s >>= fun p => f p.1 p.2) = .ok (y, s') := run
  cases first : a s with
  | error fault =>
    rw [first] at run'
    cases run'
  | ok p =>
    rw [first] at run'
    exact hf p.1 p.2 (ha p.1 p.2 first) y s' run'

/-- A condition may be weakened. -/
theorem mono {a : Action α} {post' : α → Session → Prop} (ha : a.Ensures s post)
    (h : ∀ x s', post x s' → post' x s') : a.Ensures s post' := by
  intro x s' run
  exact h x s' (ha x s' run)

/-- Two conditions that are ensured separately are ensured together, since both speak about the same
run. -/
theorem and {a : Action α} {post' : α → Session → Prop} (ha : a.Ensures s post)
    (ha' : a.Ensures s post') : a.Ensures s fun x s' => post x s' ∧ post' x s' :=
  fun x s' run => ⟨ha x s' run, ha' x s' run⟩

/-- A mapped result is that of a bind with a pure action. -/
theorem map {a : Action α} {f : α → β} {post : β → Session → Prop}
    (ha : a.Ensures s fun x s' => post (f x) s') : Action.Ensures (f <$> a) s post := by
  have same : f <$> a = a >>= fun x => Pure.pure (f x) := rfl
  rw [same]
  exact bind ha fun x s' h => pure h

theorem modifyGet {f : Session → α × Session} (h : post (f s).1 (f s).2) :
    Action.Ensures (MonadState.modifyGet f) s post := by
  intro x s' run
  have same : f s = (x, s') := Except.ok.inj run
  rw [same] at h
  exact h

/-- A question leaves the session as it is, and has no result if it meets a fault. -/
theorem ask {f : Session → Except Fault α} (h : ∀ x, f s = .ok x → post x s) :
    (Action.ask f).Ensures s post := by
  intro x s' run
  unfold Action.ask at run
  cases found : f s with
  | error fault =>
    rw [found] at run
    cases run
  | ok y =>
    rw [found] at run
    cases run
    exact h _ found

/-- A change that may meet a fault has a result only if it does not. -/
theorem change {f : Session → Except Fault Session} {post : PUnit → Session → Prop}
    (h : ∀ s', f s = .ok s' → post ⟨⟩ s') : (Action.change f).Ensures s post := by
  intro x s' run
  unfold Action.change at run
  cases found : f s with
  | error fault =>
    rw [found] at run
    cases run
  | ok t =>
    rw [found] at run
    cases run
    exact h _ found

/-- A fault is no end, so anything is ensured of it. -/
theorem fault {f : Fault} : Action.Ensures (throw f : Action α) s post := by
  intro x s' run
  cases run

theorem outcome {a : Attempt α} {ok : α → Session → Prop} {failed : Failure → Session → Prop}
    (ha : a.Ensures s ok failed) : (Action.outcome a).Ensures s (Attempt.Ends ok failed) := ha

/-! ## A step and what follows it -/

/-- Reading the session hands it on. The rules from here on are for the statements of a `do` block,
one after the other. -/
theorem get_bind {k : Session → Action α} (h : (k s).Ensures s post) :
    Action.Ensures (get >>= k) s post := by
  intro x s' run
  exact h x s' run

theorem modify_bind {f : Session → Session} {k : PUnit → Action α} (h : (k ⟨⟩).Ensures (f s) post) :
    Action.Ensures (modify f >>= k) s post := by
  intro x s' run
  exact h x s' run

theorem modifyGet_bind {f : Session → β × Session} {k : β → Action α}
    (h : (k (f s).1).Ensures (f s).2 post) :
    Action.Ensures (MonadState.modifyGet f >>= k) s post := by
  intro x s' run
  exact h x s' run

/-- What a question answers is known to hold of the session in which it is asked. -/
theorem ask_bind {f : Session → Except Fault β} {k : β → Action α}
    (h : ∀ y, f s = .ok y → (k y).Ensures s post) :
    Action.Ensures (Action.ask f >>= k) s post := by
  have first : (Action.ask f).Ensures s fun y s' => f s = .ok y ∧ s' = s :=
    ask fun y found => ⟨found, rfl⟩
  refine bind first ?_
  rintro y s' ⟨found, rfl⟩
  exact h y found

/-- After a change the rest starts from the changed session. -/
theorem change_bind {f : Session → Except Fault Session} {k : PUnit → Action α}
    (h : ∀ s', f s = .ok s' → (k ⟨⟩).Ensures s' post) :
    Action.Ensures (Action.change f >>= k) s post := by
  have first : (Action.change f).Ensures s fun _ s' => f s = .ok s' := change fun s' found => found
  refine bind first ?_
  intro _ s' found
  exact h s' found

end Action.Ensures

namespace Attempt.Ensures

variable {s : Session} {ok : α → Session → Prop} {failed : Failure → Session → Prop}

theorem of_action {a : Action (Except Failure α)} (ha : a.Ensures s (Attempt.Ends ok failed)) :
    Attempt.Ensures (ExceptT.mk a) s ok failed := ha

theorem pure {x : α} (h : ok x s) : Attempt.Ensures (Pure.pure x) s ok failed := by
  intro r s' run
  cases run
  exact h

/-- A failure that is thrown ends the attempt as failed. -/
theorem throw {e : Failure} (h : failed e s) :
    Attempt.Ensures (MonadExcept.throw e : Attempt α) s ok failed := by
  intro r s' run
  cases run
  exact h

/-- A failure of the first part is one of the whole. -/
theorem bind {a : Attempt α} {f : α → Attempt β} {mid : α → Session → Prop}
    {ok : β → Session → Prop} (ha : a.Ensures s mid failed)
    (hf : ∀ x s', mid x s' → (f x).Ensures s' ok failed) :
    Attempt.Ensures (a >>= f) s ok failed := by
  refine Action.Ensures.bind ha ?_
  intro r s' h
  cases r with
  | ok x => exact hf x s' h
  | error e => exact Action.Ensures.pure h

/-- Both conditions may be weakened, the one for success and the one for failure. -/
theorem mono {a : Attempt α} {ok' : α → Session → Prop} {failed' : Failure → Session → Prop}
    (ha : a.Ensures s ok failed) (hok : ∀ x s', ok x s' → ok' x s')
    (hfailed : ∀ e s', failed e s' → failed' e s') : a.Ensures s ok' failed' := by
  intro r s' run
  have h := ha r s' run
  cases r with
  | ok x => exact hok x s' h
  | error e => exact hfailed e s' h

/-- Pairs of conditions that are ensured separately are ensured together. -/
theorem and {a : Attempt α} {ok' : α → Session → Prop} {failed' : Failure → Session → Prop}
    (ha : a.Ensures s ok failed) (ha' : a.Ensures s ok' failed') :
    a.Ensures s (fun x s' => ok x s' ∧ ok' x s') fun e s' => failed e s' ∧ failed' e s' :=
  fun r s' run => (ha r s' run).and (ha' r s' run)

/-- An action cannot fail, so for a lifted one any condition for failure will do. -/
theorem lift {a : Action α} (ha : a.Ensures s ok) :
    Attempt.Ensures (liftM a) s ok failed := by
  have lifted : Action.Ensures ((Except.ok : α → Except Failure α) <$> a) s
      (Attempt.Ends ok failed) :=
    Action.Ensures.map ha
  exact lifted

theorem modifyGet {f : Session → α × Session} (h : ok (f s).1 (f s).2) :
    Attempt.Ensures (MonadState.modifyGet f) s ok failed := by
  intro r s' run
  cases run
  exact h

/-- A refusal ends as failed, with the failure and the session that `Session.fail` makes. -/
theorem refuse {report : Report} (h : failed (s.fail report).1 (s.fail report).2) :
    Attempt.Ensures (Attempt.refuse report : Attempt α) s ok failed := by
  have failing : Attempt.Ensures (MonadState.modifyGet (·.fail report)) s failed failed :=
    modifyGet h
  refine bind failing ?_
  intro e s' he
  exact throw he

/-! ## A step and what follows it -/

theorem get_bind {k : Session → Attempt α} (h : (k s).Ensures s ok failed) :
    Attempt.Ensures (get >>= k) s ok failed := by
  intro r s' run
  exact h r s' run

theorem modify_bind {f : Session → Session} {k : PUnit → Attempt α}
    (h : (k ⟨⟩).Ensures (f s) ok failed) : Attempt.Ensures (modify f >>= k) s ok failed := by
  intro r s' run
  exact h r s' run

theorem modifyGet_bind {f : Session → β × Session} {k : β → Attempt α}
    (h : (k (f s).1).Ensures (f s).2 ok failed) :
    Attempt.Ensures (MonadState.modifyGet f >>= k) s ok failed := by
  intro r s' run
  exact h r s' run

theorem ask_bind {f : Session → Except Fault β} {k : β → Attempt α}
    (h : ∀ y, f s = .ok y → (k y).Ensures s ok failed) :
    Attempt.Ensures (Attempt.ask f >>= k) s ok failed := by
  have asked : (Action.ask f).Ensures s fun y s' => f s = .ok y ∧ s' = s :=
    Action.Ensures.ask fun y found => ⟨found, rfl⟩
  have first : Attempt.Ensures (Attempt.ask f) s (fun y s' => f s = .ok y ∧ s' = s) failed :=
    lift asked
  refine bind first ?_
  rintro y s' ⟨found, rfl⟩
  exact h y found

theorem change_bind {f : Session → Except Fault Session} {k : PUnit → Attempt α}
    (h : ∀ s', f s = .ok s' → (k ⟨⟩).Ensures s' ok failed) :
    Attempt.Ensures (liftM (Action.change f) >>= k) s ok failed := by
  have changed : (Action.change f).Ensures s fun _ s' => f s = .ok s' :=
    Action.Ensures.change fun s' found => found
  refine bind (lift changed) ?_
  intro _ s' found
  exact h s' found

end Attempt.Ensures

/-- Each end of the attempt that succeeds is as `ok` says, whatever becomes of one that fails. -/
abbrev Attempt.Delivers (a : Attempt α) (s : Session) (ok : α → Session → Prop) : Prop :=
  a.Ensures s ok fun _ _ => True

namespace Attempt.Delivers

variable {s : Session} {a : Attempt α} {ok ok' : α → Session → Prop}
  {failed : Failure → Session → Prop}

/-- What is ensured of success is delivered, whatever is known of failure. -/
theorem of_ensures (h : a.Ensures s ok failed) : a.Delivers s ok :=
  h.mono (fun _ _ h => h) fun _ _ _ => trivial

theorem mono (h : a.Delivers s ok) (imp : ∀ x s', ok x s' → ok' x s') : a.Delivers s ok' :=
  Attempt.Ensures.mono h imp fun _ _ _ => trivial

/-- What is delivered may be added to what is ensured. -/
theorem and (h : a.Ensures s ok failed) (h' : a.Delivers s ok') :
    a.Delivers s fun x s' => ok x s' ∧ ok' x s' := of_ensures (Attempt.Ensures.and h h')

/-- Nothing has to be delivered by a refusal. -/
theorem refuse {report : Report} : (Attempt.refuse report : Attempt α).Delivers s ok :=
  Attempt.Ensures.refuse trivial

end Attempt.Delivers

/-! ## Runs of which the first step is known -/

section Runs

variable {s t : Session}

/-- A run of the first action that ends hands its result and its session to the second. -/
theorem Action.bind_of_ok {a : Action α} {f : α → Action β} {x : α} (first : a s = .ok (x, t)) :
    (a >>= f) s = f x t := by
  have whole : (a >>= f) s = a s >>= fun p => f p.1 p.2 := rfl
  rw [whole, first]
  rfl

/-- So does the run of an attempt that succeeds. -/
theorem Attempt.bind_of_ok {a : Attempt α} {f : α → Attempt β} {x : α}
    (first : a s = .ok (.ok x, t)) :
    (a >>= f) s = f x t := by
  have whole : (a >>= f) s = a s >>= fun p => ExceptT.bindCont f p.1 p.2 := rfl
  rw [whole, first]
  rfl

/-- An attempt that fails skips what follows. -/
theorem Attempt.bind_of_error {a : Attempt α} {f : α → Attempt β} {e : Failure}
    (first : a s = .ok (.error e, t)) : (a >>= f) s = .ok (.error e, t) := by
  have whole : (a >>= f) s = a s >>= fun p => ExceptT.bindCont f p.1 p.2 := rfl
  rw [whole, first]
  rfl

/-- A lifted action hands over as an action does. -/
theorem Attempt.lift_bind_of_ok {a : Action α} {f : α → Attempt β} {x : α}
    (first : a s = .ok (x, t)) :
    ((liftM a : Attempt α) >>= f) s = f x t := by
  refine Attempt.bind_of_ok ?_
  have lifted : (liftM a : Attempt α) s = a s >>= fun p => .ok (.ok p.1, p.2) := rfl
  rw [lifted, first]
  rfl

end Runs

end Conference
