/-
  Exchanges that go by a plan.

  What a pool does with a driver at a stretch is a plan: the exchanges that take place if all goes well,
  each with the answer that it gets then.  An action that `Follows` a plan carries it out to the end and
  succeeds, or it stops at the first exchange that fails and fails as that exchange did; there is no
  third way, and nothing takes place that is not in the plan.

  To ask a driver a question makes the plan depend on the answer (`follows_ask`).  So it is with undoing
  uncommitted work (`undoing`), which begins with the question whether there can be any, and with the
  probe (`fullProbe`), which ends with it.
-/
import ConnPool.Proofs.Observation

namespace ConnPool

variable {σ α β : Type}

/-! ## Failures in a log -/

namespace Exchange

/-- The failure that was the answer. -/
def error? : Exchange → Option ConnectionError
  | .connect _ _ _ (.error e) => some e
  | .call _ _ _ (.error e) => some e
  | _ => none

/-- The same exchange with a failure for its answer. -/
def failing (e : ConnectionError) : Exchange → Exchange
  | .connect conn url properties _ => .connect conn url properties (.error e)
  | .call who conn request _ => .call who conn request (.error e)

@[simp] theorem error?_failing (e : ConnectionError) (x : Exchange) :
    (x.failing e).error? = some e := by
  cases x <;> rfl

@[simp] theorem error?_connect_ok (conn : Conn) (url : String) (properties : Properties) (u : Unit) :
    (connect conn url properties (.ok u)).error? = none := rfl

end Exchange

/-- Exchanges none of which fails. -/
def Smooth (log : List Exchange) : Prop := ∀ x ∈ log, x.error? = none

namespace Smooth

variable {a b : List Exchange} {x : Exchange}

theorem cons (hx : x.error? = none) (h : Smooth a) : Smooth (x :: a) :=
  List.forall_mem_cons.2 ⟨hx, h⟩

theorem left (h : Smooth (a ++ b)) : Smooth a := (List.forall_mem_append.1 h).1

theorem right (h : Smooth (a ++ b)) : Smooth b := (List.forall_mem_append.1 h).2

end Smooth

/-! ## Following a plan -/

/-- What takes place of a plan that is stopped by a failure: the exchanges up to one, which fails. -/
def Stopped (plan : List Exchange) (e : ConnectionError) (said : List Exchange) : Prop :=
  ∃ done x rest, plan = done ++ x :: rest ∧ said = done ++ [x.failing e]

namespace Stopped

variable {plan plan' said : List Exchange} {e : ConnectionError} {x : Exchange}

/-- The first exchange of a plan can fail. -/
theorem head (x : Exchange) (plan : List Exchange) (e : ConnectionError) :
    Stopped (x :: plan) e [x.failing e] :=
  ⟨[], x, plan, rfl, rfl⟩

/-- What was to be done later makes no difference to a plan that is stopped. -/
theorem append (h : Stopped plan e said) : Stopped (plan ++ plan') e said := by
  obtain ⟨done, x, rest, rfl, rfl⟩ := h
  exact ⟨done, x, rest ++ plan', List.append_assoc .., rfl⟩

/-- A plan can be stopped after something else was done. -/
theorem after (h : Stopped plan' e said) : Stopped (plan ++ plan') e (plan ++ said) := by
  obtain ⟨done, x, rest, rfl, rfl⟩ := h
  exact ⟨plan ++ done, x, rest, (List.append_assoc ..).symm, (List.append_assoc ..).symm⟩

theorem not_smooth (h : Stopped plan e said) : ¬ Smooth said := by
  obtain ⟨done, x, rest, -, rfl⟩ := h
  intro hsmooth
  have hx := hsmooth.right _ List.mem_cons_self
  rw [Exchange.error?_failing] at hx
  nomatch hx

/-- The first failure in what took place is the one that stopped the plan. -/
theorem first_failure (h : Stopped plan e said) (hplan : Smooth plan) :
    said.findSome? Exchange.error? = some e := by
  obtain ⟨done, x, rest, rfl, rfl⟩ := h
  rw [List.findSome?_append, List.findSome?_eq_none_iff.2 hplan.left, Option.none_or,
    List.findSome?_cons, Exchange.error?_failing]

/-- A plan of one exchange, or one more, is stopped at once or later. -/
theorem cons_cases (h : Stopped (x :: plan) e said) :
    said = [x.failing e] ∨ ∃ said', Stopped plan e said' ∧ said = x :: said' := by
  obtain ⟨done, y, rest, hplan, rfl⟩ := h
  rcases done with _ | ⟨z, done⟩
  · obtain ⟨rfl, -⟩ := List.cons.inj hplan
    exact Or.inl rfl
  · obtain ⟨rfl, rfl⟩ := List.cons.inj hplan
    exact Or.inr ⟨done ++ [y.failing e], ⟨done, y, rest, rfl, rfl⟩, rfl⟩

theorem not_nil (h : Stopped [] e said) : False := by
  obtain ⟨done, x, rest, hplan, -⟩ := h
  cases done <;> nomatch hplan

end Stopped

namespace Drivers

/-- The exchanges that took place from the state `s` on are those of the plan, all of them, or up to one
    that failed. -/
inductive Follows (plan : List Exchange) (s : Observed σ) :
    Except ConnectionError α × Observed σ → Prop
  | through {a : α} {s' : Observed σ} (log : s'.log = s.log ++ plan) : Follows plan s (.ok a, s')
  | stopped {e : ConnectionError} {s' : Observed σ} {said : List Exchange}
      (stopped : Stopped plan e said) (log : s'.log = s.log ++ said) : Follows plan s (.error e, s')

namespace Follows

variable {plan plan' : List Exchange} {s s' : Observed σ}

/-- Success means that the whole plan was carried out. -/
theorem log_of_ok {a : α} (h : Follows plan s (.ok a, s')) : s'.log = s.log ++ plan := by
  cases h with
  | through log => exact log

/-- Failure means that the plan was stopped. -/
theorem log_of_error {e : ConnectionError}
    (h : Follows plan s ((.error e : Except ConnectionError α), s')) :
    ∃ said, Stopped plan e said ∧ s'.log = s.log ++ said := by
  cases h with
  | @stopped _ _ said hstopped log => exact ⟨said, hstopped, log⟩

/-- The plans of two things done one after the other are one plan. -/
theorem bind {action : Calls (Observed σ) α} {f : α → Calls (Observed σ) β}
    (h : Follows plan s (action s))
    (hf : ∀ a s', action s = (.ok a, s') → Follows plan' s' (f a s')) :
    Follows (plan ++ plan') s ((action >>= f) s) := by
  rw [Calls.bind_run]
  rcases hr : action s with ⟨r, s₁⟩
  rw [hr] at h
  cases h with
  | stopped hstopped log => exact .stopped hstopped.append log
  | @through a _ log =>
    have hnext := hf a s₁ hr
    dsimp only
    rcases hs : f a s₁ with ⟨r, s₂⟩
    rw [hs] at hnext
    cases hnext with
    | through log' => exact .through (by rw [log', log, List.append_assoc])
    | stopped hstopped log' =>
      exact .stopped hstopped.after (by rw [log', log, List.append_assoc])

/-- What is done second may go by one of several plans; which one, is seen when it is done. -/
theorem bind_some {plans : Bool → List Exchange} {action : Calls (Observed σ) α}
    {f : α → Calls (Observed σ) β} (h : Follows plan s (action s))
    (hf : ∀ a s', ∃ b, Follows (plans b) s' (f a s')) :
    ∃ b, Follows (plan ++ plans b) s ((action >>= f) s) := by
  rcases hr : action s with ⟨r, s₁⟩
  cases r with
  | error e => exact ⟨false, h.bind fun a s' hok => nomatch hr.symm.trans hok⟩
  | ok a =>
    obtain ⟨b, hb⟩ := hf a s₁
    refine ⟨b, h.bind fun a' s' hok => ?_⟩
    obtain ⟨ha, rfl⟩ := Prod.mk.inj (hr.symm.trans hok)
    obtain rfl := Except.ok.inj ha
    exact hb

end Follows

variable (D : Drivers σ)

theorem follows_pure (a : α) (s : Observed σ) :
    Follows [] s ((pure a : Calls (Observed σ) α) s) :=
  .through (List.append_nil _).symm

theorem log_of_call (who : Party) (conn : Conn) (call : RawCall) (s : Observed σ) :
    ((D.observed who).call conn call s).2.log =
      s.log ++ [.call who conn call (((D.observed who).call conn call s).1.map call.report)] := rfl

/-- A call that gives nothing back is a plan of its own. -/
theorem follows_call (who : Party) (conn : Conn) (call : RawCall)
    (silent : ∀ a, call.report a = none) (s : Observed σ) :
    Follows [.call who conn call (.ok none)] s ((D.observed who).call conn call s) := by
  have hlog := D.log_of_call who conn call s
  rcases hr : (D.observed who).call conn call s with ⟨r, s₁⟩
  rw [hr] at hlog
  cases r with
  | error e => exact .stopped (.head ..) hlog
  | ok a =>
    refine .through (hlog.trans ?_)
    show s.log ++ [.call who conn call (.ok (call.report a))] = _
    rw [silent a]

/-- A question first, and then what depends on the answer; the answer is unknown if the question itself
    fails. -/
theorem follows_ask {who : Party} {conn : Conn} {f : Bool → Calls (Observed σ) α}
    {rest : Bool → List Exchange} (hf : ∀ answer s', Follows (rest answer) s' (f answer s'))
    (s : Observed σ) :
    ∃ answer, Follows (.call who conn .autoCommit (.ok (some answer)) :: rest answer) s
      (((D.observed who).call conn .autoCommit >>= f) s) := by
  have hlog := D.log_of_call who conn .autoCommit s
  rcases hr : (D.observed who).call conn .autoCommit s with ⟨r, s₁⟩
  rw [hr] at hlog
  cases r with
  | error e =>
    refine ⟨false, ?_⟩
    rw [Calls.bind_run, hr]
    exact .stopped (.head ..) hlog
  | ok answer =>
    have hasked : Follows [.call who conn .autoCommit (.ok (some answer))] s
        ((D.observed who).call conn .autoCommit s) := hr ▸ .through hlog
    refine ⟨answer, hasked.bind fun a s' h => ?_⟩
    obtain ⟨ha, rfl⟩ := Prod.mk.inj (hr.symm.trans h)
    obtain rfl := Except.ok.inj ha
    exact hf answer s₁

end Drivers

/-! ## Undoing, and probing -/

/-- To undo the uncommitted work on a connection, if it has the mode `automatic`. -/
def undoing (conn : Conn) (automatic : Bool) : List Exchange :=
  .call .pool conn .autoCommit (.ok (some automatic)) ::
    if automatic then [] else [.call .pool conn .rollback (.ok none)]

/-- To run the probe statement on a connection with the mode `automatic` and undo what it did. -/
def fullProbe (query : String) (conn : Conn) (automatic : Bool) : List Exchange :=
  .call .pool conn (.execute query) (.ok none) :: undoing conn automatic

namespace Drivers

variable (D : Drivers σ) (conn : Conn)

theorem follows_rollbackIfManual (s : Observed σ) :
    ∃ automatic, Follows (undoing conn automatic) s
      ((D.observed .pool).rollbackIfManual conn s) := by
  refine D.follows_ask (fun automatic s' => ?_) s
  cases automatic with
  | true => exact follows_pure () s'
  | false => exact D.follows_call .pool conn .rollback (fun _ => rfl) s'

theorem follows_probe (config : PoolConfig) (s : Observed σ) :
    ∃ automatic, Follows (fullProbe config.pingQuery conn automatic) s
      ((D.observed .pool).probe config conn s) :=
  (D.follows_call .pool conn (.execute config.pingQuery) (fun _ => rfl) s).bind_some fun _ =>
    D.follows_rollbackIfManual conn

end Drivers

end ConnPool
