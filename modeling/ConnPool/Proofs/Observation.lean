/-
  What the drivers are asked, and by whom.

  The state of a pool does not tell what was done to a connection that is gone.  So runs are observed:
  the drivers keep, beside their own state, a log of every exchange with them in the order in which it
  took place, with the answer that they gave (`Observed`).  The pool and the holders of its connections
  get two views of the same observed drivers, and the log says which of the two made a call.

  Observing changes nothing: what the users of a pool see, and the machine that a run ends in, are those
  of the run that nobody observes, whatever the drivers are (`Machine.observeAll_erase`).

  `Continues Q` says that a log was continued by exchanges that were allowed, each one given what stood
  in the log before it.  It is how effects on the drivers are stated: each operation continues the log,
  and what it may append is in the `Q`.
-/
import ConnPool.Proofs.Run
import Mathlib.Logic.Relation

namespace ConnPool

/-! ## The log -/

/-- Who calls a connection. -/
inductive Party
  | pool
  | holder
deriving DecidableEq, Repr

/-- One exchange with the drivers. -/
inductive Exchange
  /-- The pool opens a connection. -/
  | connect (conn : Conn) (url : String) (properties : Properties)
      (answer : Except ConnectionError Unit)
  /-- Somebody calls a connection. -/
  | call (caller : Party) (conn : Conn) (call : RawCall)
      (answer : Except ConnectionError (Option Bool))
deriving DecidableEq

/-- Drivers with the log of what they were asked, the latest exchange last. -/
structure Observed (σ : Type) where
  drivers : σ
  log : List Exchange := []

variable {σ α β : Type}

/-- The drivers as somebody sees them whose exchanges are noted. -/
def Drivers.observed (D : Drivers σ) (who : Party) : Drivers (Observed σ) where
  connect conn url properties := fun s =>
    let (r, t) := D.connect conn url properties s.drivers
    (r, ⟨t, s.log ++ [.connect conn url properties r]⟩)
  call conn call := fun s =>
    let (r, t) := D.call conn call s.drivers
    (r, ⟨t, s.log ++ [.call who conn call (r.map call.report)]⟩)

/-- An event under observation: what the drivers do by themselves leaves the log alone. -/
def Event.observed : Event σ → Event (Observed σ)
  | .acquire key who => .acquire key who
  | .resume key => .resume key
  | .abandon key => .abandon key
  | .release key => .release key
  | .use key call => .use key call
  | .reconfigure change => .reconfigure change
  | .setTolerance n => .setTolerance n
  | .shutDown key => .shutDown key
  | .look key => .look key
  | .advance d => .advance d
  | .disturb change => .disturb fun s => { s with drivers := change s.drivers }
  | .letGo => .letGo

namespace Machine

/-- One event under observation. -/
def observe (D : Drivers σ) (m : Machine (Observed σ)) (e : Event σ) :
    Outcome × Machine (Observed σ) :=
  m.stepAs (D.observed .pool) (D.observed .holder) e.observed

/-- An observed run of a new pool: what its users saw, and the machine at the end. -/
def observeAll (D : Drivers σ) (source : Source) (config : PoolConfig) (s : σ)
    (es : List (Event σ)) : List Outcome × Machine (Observed σ) :=
  (start (.new source config) ⟨s, []⟩).runAs (D.observed .pool) (D.observed .holder)
    (es.map .observed)

/-- An observed event keeps what is kept, if that does not depend on the drivers' own state. -/
theorem observe_keptBetween {D : Drivers σ} {I : World (Observed σ) → Prop}
    (hI : World.KeptBetween (D.observed .pool) (D.observed .holder) I)
    (disturb : ∀ w (f : σ → σ), I w → I (w.onDrivers fun s => { s with drivers := f s.drivers }))
    (m : Machine (Observed σ)) (e : Event σ)
    (reconfigure : ∀ change, e = .reconfigure change → ∀ w, I w →
      I (w.reconfigure (D.observed .pool) change))
    (h : I m.world) : I (m.observe D e).2.world := by
  refine stepAs_keptBetween hI m e.observed (fun change he w hw => ?_) (fun change he w hw => ?_) h
  · cases e with
    | reconfigure change' =>
      obtain rfl := Event.reconfigure.inj he
      exact reconfigure change' rfl w hw
    | _ => nomatch he
  · cases e with
    | disturb f =>
      obtain rfl := Event.disturb.inj he
      exact disturb w f hw
    | _ => nomatch he

theorem observe_kept {D : Drivers σ} {I : World (Observed σ) → Prop}
    (hI : World.Kept (D.observed .pool) (D.observed .holder) I)
    (disturb : ∀ w (f : σ → σ), I w → I (w.onDrivers fun s => { s with drivers := f s.drivers }))
    (m : Machine (Observed σ)) (e : Event σ) (h : I m.world) : I (m.observe D e).2.world :=
  observe_keptBetween hI.toKeptBetween disturb m e (fun change _ _ hw => hI.reconfigure change hw) h

/-- A property of observed machines that holds at the start and survives every event holds after every
    run. -/
theorem observeAll_rule (D : Drivers σ) (source : Source) (config : PoolConfig) (s : σ)
    (es : List (Event σ)) {J : List Outcome → Machine (Observed σ) → Prop}
    (start : J [] (start (.new source config) ⟨s, []⟩))
    (step : ∀ os m, ∀ e ∈ es, J os m → J (os ++ [(m.observe D e).1]) (m.observe D e).2) :
    J (observeAll D source config s es).1 (observeAll D source config s es).2 := by
  refine runAs_rule _ _ _ start fun os m e' he' h => ?_
  obtain ⟨e, he, rfl⟩ := List.mem_map.1 he'
  exact step os m e he h

section Reached

variable (D : Drivers σ) (source : Source) (config : PoolConfig) (s : σ)

/-- The machine that an observed run of a new pool ends in. -/
def reached (es : List (Event σ)) : Machine (Observed σ) :=
  (observeAll D source config s es).2

theorem observeAll_concat (es : List (Event σ)) (e : Event σ) :
    observeAll D source config s (es ++ [e]) =
      ((observeAll D source config s es).1 ++ [((reached D source config s es).observe D e).1],
        ((reached D source config s es).observe D e).2) := by
  rw [observeAll, List.map_append]
  exact runAs_concat _ _ _ _ _

theorem reached_concat (es : List (Event σ)) (e : Event σ) :
    reached D source config s (es ++ [e]) = ((reached D source config s es).observe D e).2 := by
  rw [reached, observeAll_concat]

end Reached

end Machine

/-! ## Continuing a log -/

/-- The second log continues the first by exchanges that `Q` allows, each after what stands before. -/
def Continues (Q : List Exchange → Exchange → Prop) : List Exchange → List Exchange → Prop :=
  Relation.ReflTransGen fun log log' => ∃ x, Q log x ∧ log' = log ++ [x]

namespace Continues

variable {Q Q' : List Exchange → Exchange → Prop} {a b c : List Exchange}

theorem refl (a : List Exchange) : Continues Q a a := Relation.ReflTransGen.refl

theorem trans (h : Continues Q a b) (h' : Continues Q b c) : Continues Q a c :=
  Relation.ReflTransGen.trans h h'

theorem one {x : Exchange} (h : Q a x) : Continues Q a (a ++ [x]) :=
  Relation.ReflTransGen.single ⟨x, h, rfl⟩

theorem mono (hQ : ∀ log x, Q log x → Q' log x) (h : Continues Q a b) : Continues Q' a b := by
  induction h with
  | refl => exact refl a
  | tail _ hx ih =>
    obtain ⟨x, hq, rfl⟩ := hx
    exact ih.trans (one (hQ _ _ hq))

theorem isPrefix (h : Continues Q a b) : a <+: b := by
  induction h with
  | refl => exact List.prefix_refl a
  | tail _ hx ih =>
    obtain ⟨x, -, rfl⟩ := hx
    exact ih.trans (List.prefix_append _ _)

/-- Each exchange of the continuation was allowed when it took place. -/
theorem allows (h : Continues Q a b) {past : List Exchange} {x : Exchange} (ha : a <+: past)
    (hb : past ++ [x] <+: b) : Q past x := by
  induction h with
  | refl =>
    have h₁ := ha.length_le
    have h₂ := hb.length_le
    rw [List.length_append, List.length_singleton] at h₂
    omega
  | tail _ hy ih =>
    obtain ⟨y, hq, rfl⟩ := hy
    rcases List.prefix_concat_iff.1 hb with he | hb
    · obtain ⟨rfl, hxy⟩ := List.append_inj' he rfl
      obtain rfl := List.singleton_inj.1 hxy
      exact hq
    · exact ih hb

end Continues

/-! ## What an action says to the drivers -/

/-- Whatever the drivers answer, the action continues the log as `Q` allows. -/
def Drivers.Says (Q : List Exchange → Exchange → Prop) (action : Calls (Observed σ) α) : Prop :=
  ∀ s, Continues Q s.log (action s).2.log

namespace Drivers

variable {Q : List Exchange → Exchange → Prop}

theorem says_pure (a : α) : Says Q (pure a : Calls (Observed σ) α) := fun s => Continues.refl s.log

theorem says_bind {action : Calls (Observed σ) α} {f : α → Calls (Observed σ) β}
    (h : Says Q action) (hf : ∀ a, Says Q (f a)) : Says Q (action >>= f) := by
  intro s
  have hs := h s
  rw [Calls.bind_run]
  rcases hr : action s with ⟨r, t⟩
  rw [hr] at hs
  cases r with
  | error e => exact hs
  | ok a => exact hs.trans (hf a t)

variable (D : Drivers σ) {who : Party} (conn : Conn)

theorem says_call (call : RawCall) (h : ∀ log answer, Q log (.call who conn call answer)) :
    Says Q ((D.observed who).call conn call) :=
  fun s => Continues.one (h s.log _)

/-- Undoing uncommitted work asks for the mode and may roll back. -/
theorem says_rollbackIfManual
    (mode : ∀ log answer, Q log (.call who conn .autoCommit answer))
    (rollback : ∀ log answer, Q log (.call who conn .rollback answer)) :
    Says Q ((D.observed who).rollbackIfManual conn) := by
  refine says_bind (says_call D conn .autoCommit mode) fun automatic => ?_
  cases automatic with
  | true => exact says_pure ()
  | false => exact says_call D conn .rollback rollback

end Drivers

end ConnPool
