/-
  What a pool asks of the drivers below it.

  A driver opens raw connections and answers calls on them; every call may fail, for whatever reason.
  `Drivers σ` is all that is known about drivers: how they answer when their own state is `σ`. 
  Nothing is assumed about the answers, so what holds of a pool over every `Drivers σ` holds whatever
  its drivers do, and when.

  Whoever opens a connection chooses the ticket under which it is opened, a new one for every attempt.
  A connection is named by its driver and its ticket ever after, so two connections are never
  confused, not even by a driver that hands out the same thing twice.
-/
import ConnPool.Duration.Basic
import ConnPool.Isolation
import ConnPool.Properties

namespace ConnPool

/-! ## Failures -/

/-- The class of a failure. -/
inductive FailureKind
  /-- The target refused the connection, or was not reached. -/
  | refused
  /-- The connection was closed. -/
  | closed
  /-- A statement failed. -/
  | query
  | other
deriving DecidableEq, Repr

def FailureKind.label : FailureKind → String
  | .refused => "refused"
  | .closed => "closed"
  | .query => "query"
  | .other => "other"

/-- A failure that a driver reports. -/
structure ConnectionError where
  kind : FailureKind
  detail : String
deriving DecidableEq, Repr

def ConnectionError.message (e : ConnectionError) : String :=
  e.kind.label ++ ": " ++ e.detail

/-! ## Calls -/

/-- A call on a raw connection. -/
inductive RawCall
  | isClosed
  | autoCommit
  | setAutoCommit (on : Bool)
  | setIsolation (level : Isolation)
  | setNetworkTimeout (timeout : Duration)
  | execute (statement : String)
  | commit
  | rollback
  | close
deriving DecidableEq, Repr

namespace RawCall

/-- What a successful call gives back: the two questions are answered, all else is done silently. -/
@[reducible] def Answer : RawCall → Type
  | .isClosed => Bool
  | .autoCommit => Bool
  | _ => Unit

/-- The answer of a question, and nothing for a call that is done silently. -/
def report : (call : RawCall) → call.Answer → Option Bool
  | .isClosed, b => some b
  | .autoCommit, b => some b
  | .setAutoCommit _, _ => none
  | .setIsolation _, _ => none
  | .setNetworkTimeout _, _ => none
  | .execute _, _ => none
  | .commit, _ => none
  | .rollback, _ => none
  | .close, _ => none

end RawCall

/-- A raw connection: the driver that opened it, and the ticket of the attempt. -/
structure Conn where
  driver : Nat
  ticket : Nat
deriving DecidableEq, Repr

/-! ## Drivers -/

/-- Something done with drivers in the state `σ`; it may fail, and changes the state either way. -/
abbrev Calls (σ : Type) := ExceptT ConnectionError (StateM σ)

/-- Drivers with the state `σ`. -/
structure Drivers (σ : Type) where
  /-- Opens a connection under a name that was never used before. -/
  connect : Conn → (url : String) → Properties → Calls σ Unit
  /-- Answers a call on a connection. -/
  call : Conn → (call : RawCall) → Calls σ call.Answer

namespace Drivers

variable {σ : Type} (D : Drivers σ)

/-- Undoes uncommitted work on a connection that does not commit by itself. -/
def rollbackIfManual (conn : Conn) : Calls σ Unit := do
  let automatic ← D.call conn .autoCommit
  if automatic then pure () else D.call conn .rollback

/-- The state after something is done with the drivers whose failure does not matter. -/
def quietly (action : Calls σ α) (s : σ) : σ :=
  (action s).2

/-- Gives a connection up: uncommitted work is undone and the connection closed, as far as the driver
lets it. -/
def giveUp (conn : Conn) (s : σ) : σ :=
  quietly (D.call conn .close) (quietly (D.rollbackIfManual conn) s)

end Drivers

/-! ## Laws -/

/-- Two things done one after the other: the second is not begun if the first fails. -/
theorem Calls.bind_run (action : Calls σ α) (f : α → Calls σ β) (s : σ) :
    (action >>= f) s = match action s with
      | (.ok a, s) => f a s
      | (.error e, s) => (.error e, s) := by
  rcases h : action s with ⟨r, t⟩
  have hs : (action >>= f) s = ExceptT.bindCont f (action s).1 (action s).2 := rfl
  rw [hs, h]
  cases r <;> rfl

end ConnPool
