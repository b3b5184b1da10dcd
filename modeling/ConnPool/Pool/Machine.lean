/-
  A pool in use, as a machine that takes one step at a time.

  Around a pool with its drivers stand those who use it: acquisitions that wait, shutdowns that wait
  for connections to come back, and handles that are out, each under a key chosen by its user.  An
  `Event` is one thing that happens: somebody acquires, resumes a wait, returns a handle, changes the
  configuration, time passes, or the drivers change by themselves.  `step` says what it does to the
  machine and what its user sees of it (`Outcome`).  Every order of events is a run, so a scheduler is
  a choice of events, and what holds of all runs holds under every scheduler.

  A waiting acquisition is resumed only when it is due: when it was woken, or when the slice of time
  that it waits for is over.  All who wait are woken when a handle is returned, when the configuration
  changes, and when the pool is shut down.

  Not everything can happen at any time.  Only who holds the pool can ask it for something, and a new
  acquisition or shutdown goes by a key that nothing else goes by (`admits`); an event that cannot
  happen is none, and `step` leaves the machine as it is.
-/
import ConnPool.Pool.Acquire
import ConnPool.Pool.Release

namespace ConnPool

/-- Whose acquisition, shutdown or handle it is. -/
abbrev Key := Nat

/-- An acquisition under way. -/
structure Acquisition where
  who : Credentials
  startedAt : Instant
  /-- Whether it has waited. -/
  waited : Bool := false
  /-- How many bad connections it has met. -/
  rejected : Nat := 0
deriving DecidableEq, Repr

/-- An acquisition that waits. -/
structure Waiter where
  acquisition : Acquisition
  /-- Since when it waits. -/
  since : Instant
  /-- For how long it waits at most; zero is without end. -/
  slice : Duration
  /-- Whether it was woken since it waits. -/
  woken : Bool := false
deriving DecidableEq, Repr

/-- The point at which a waiter looks again by itself. -/
def Waiter.deadline? (p : Waiter) : Option Instant :=
  if p.slice = .zero then none else some (p.since + p.slice)

/-- Whether a waiter can go on. -/
def Waiter.due (p : Waiter) (now : Instant) : Bool :=
  p.woken || p.deadline?.any (· ≤ now)

/-- A shutdown that waits for connections to come back. -/
structure Drain where
  /-- When it gives up on them. -/
  deadline : Instant
  /-- When it looks next. -/
  nextLook : Instant
deriving DecidableEq, Repr

structure Machine (σ : Type) where
  world : World σ
  /-- The acquisitions that wait, in the order in which they began to. -/
  waiters : List (Key × Waiter) := []
  drains : List (Key × Drain) := []
  handles : List (Key × Handle) := []
  /-- Whether somebody still holds the pool itself. -/
  held : Bool := true
  /-- Whether the pool is gone. -/
  gone : Bool := false

/-- Something that happens to a pool in use. -/
inductive Event (σ : Type)
  /-- An acquisition starts; without credentials it uses the configured ones. -/
  | acquire (key : Key) (who : Option Credentials)
  /-- A waiting acquisition goes on. -/
  | resume (key : Key)
  /-- A waiting acquisition, or a shutdown, is given up by its user. -/
  | abandon (key : Key)
  /-- A handle is returned. -/
  | release (key : Key)
  /-- A handle is used. -/
  | use (key : Key) (call : RawCall)
  | reconfigure (change : Change)
  | setTolerance (n : Nat)
  /-- A shutdown starts. -/
  | shutDown (key : Key)
  /-- A shutdown looks whether all connections have come back. -/
  | look (key : Key)
  | advance (d : Duration)
  /-- The drivers change by themselves. -/
  | disturb (change : σ → σ)
  /-- Nobody holds the pool itself any more; handles keep it alive. -/
  | letGo

/-- What the user of a pool sees of an event. -/
inductive Outcome
  | nothing
  | acquired (h : Handle)
  | waiting
  | refused (e : PoolError)
  /-- A call on a handle succeeded. -/
  | answered (answer : Option Bool)
  /-- A shutdown is over; so many connections had not come back. -/
  | shutDown (forceClosed : Nat)
  | draining
  /-- An acquisition broke off, because a sum did not fit in a word. -/
  | overflowed
deriving DecidableEq, Repr

namespace Machine

variable {σ : Type}

/-- The machine with its world changed. -/
def onWorld (m : Machine σ) (change : World σ → World σ) : Machine σ :=
  { m with world := change m.world }

/-- Wakes all who wait. -/
def wakeAll (m : Machine σ) : Machine σ :=
  { m with waiters := m.waiters.map fun p => (p.1, { p.2 with woken := true }) }

/-- What waits under a key. -/
def waiter? (m : Machine σ) (key : Key) : Option Waiter :=
  m.waiters.lookup key

def drain? (m : Machine σ) (key : Key) : Option Drain :=
  m.drains.lookup key

def handle? (m : Machine σ) (key : Key) : Option Handle :=
  m.handles.lookup key

/-- Whether nothing goes by a key. -/
def isFree (m : Machine σ) (key : Key) : Bool :=
  (m.waiter? key).isNone && (m.drain? key).isNone && (m.handle? key).isNone

/-- The entries without a key. -/
def without (key : Key) (l : List (Key × α)) : List (Key × α) :=
  l.filter fun e => e.1 ≠ key

/-- Whether nobody refers to the pool in any way. -/
def unused (m : Machine σ) : Bool :=
  !m.held && m.waiters.isEmpty && m.drains.isEmpty && m.handles.isEmpty

variable (D : Drivers σ)

/-- When the last reference to the pool is gone its connections are closed. -/
def settle (m : Machine σ) : Machine σ :=
  if m.unused && !m.gone then { m.onWorld (·.invalidateAll D) with gone := true } else m

/-! ## Acquisitions -/

/-- A pass of an acquisition that is not waiting any more. -/
def pass (m : Machine σ) (key : Key) (a : Acquisition) : Outcome × Machine σ :=
  if m.world.pool.closed then
    (.refused (if a.waited then .cancelled else .closed), m)
  else
    -- the budget of now, less what the passes before this one used up of it
    let budget := m.world.pool.config.badBudget - a.rejected
    match m.world.tryOut D a.who a.startedAt budget a.rejected with
    | (.handedOut h, w) => (.acquired h, { m with world := w, handles := m.handles ++ [(key, h)] })
    | (.failed e, w) => (.refused e, { m with world := w })
    | (.overflowed, w) => (.overflowed, { m with world := w })
    | (.mustWait rejected, w) =>
      -- an acquisition is counted among those that wait once, however often it does
      let w := if a.waited then w
        else w.onPool (·.count fun k => { k with hadToWait := k.hadToWait + 1 })
      let waiter : Waiter := {
        acquisition := { a with waited := true, rejected }
        since := w.now
        slice := w.pool.config.timeToWait }
      (.waiting, { m with world := w, waiters := m.waiters ++ [(key, waiter)] })

/-- An acquisition starts.  The credentials are those configured at this moment, unless the caller
brings some. -/
def acquire (m : Machine σ) (key : Key) (who : Option Credentials) : Outcome × Machine σ :=
  let who := who.getD m.world.pool.source.config.credentials
  m.pass D key { who, startedAt := m.world.now }

/-- A waiting acquisition goes on, if it is due; the time that it waited is counted. -/
def resume (m : Machine σ) (key : Key) : Outcome × Machine σ :=
  match m.waiter? key with
  | none => (.nothing, m)
  | some p =>
    if p.due m.world.now then
      let m := { m with waiters := without key m.waiters }
      let m := m.onWorld (·.onPool (·.count fun k =>
        { k with waitTime := k.waitTime + (m.world.now - p.since) }))
      m.pass D key p.acquisition
    -- woken too early: it keeps its place and its slice
    else (.waiting, m)

/-! ## Shutdown -/

/-- How long a shutdown waits between two looks. -/
def lookInterval : Duration := .ofMillis 10

/-- A shutdown looks: when no connection is out, or when it has waited long enough, it closes all that
are left and is over. -/
def lookAt (m : Machine σ) (key : Key) (deadline : Instant) : Outcome × Machine σ :=
  let out := m.world.pool.active.length
  if out = 0 ∨ deadline ≤ m.world.now then
    (.shutDown out, m.onWorld (·.invalidateAll D))
  else
    let drain : Drain := { deadline, nextLook := m.world.now + lookInterval }
    (.draining, { m with drains := m.drains ++ [(key, drain)] })

/-- A shutdown starts: from now on nothing is handed out, and all who wait are woken.

This is for a deadline that the clock can show.  It counts whole seconds in a word with a sign, so what
it shows and the drain timeout are less than `signedLimit` seconds together.  A longer timeout can be
configured; a shutdown with it breaks off when it has woken all who wait, without a look. -/
def shutDown (m : Machine σ) (key : Key) : Outcome × Machine σ :=
  let m := (m.onWorld (·.onPool fun p => { p with closed := true })).wakeAll
  m.lookAt D key (m.world.now + m.world.pool.config.drainTimeout)

/-- A shutdown looks again, if it is time to. -/
def look (m : Machine σ) (key : Key) : Outcome × Machine σ :=
  match m.drain? key with
  | none => (.nothing, m)
  | some d =>
    if d.nextLook ≤ m.world.now then
      { m with drains := without key m.drains }.lookAt D key d.deadline
    else (.draining, m)

/-! ## Handles -/

/-- A handle is returned. -/
def release (m : Machine σ) (key : Key) : Machine σ :=
  match m.handle? key with
  | none => m
  | some h =>
    ({ m with handles := without key m.handles }.onWorld (·.checkIn D h.id)).wakeAll

/-- A call through a handle; a handle that is not valid does not reach its connection. -/
def use (m : Machine σ) (key : Key) (call : RawCall) : Outcome × Machine σ :=
  match m.handle? key with
  | none => (.nothing, m)
  | some h =>
    if m.world.pool.valid.contains h.id then
      match m.world.run (D.call h.conn call) with
      | (.ok answer, w) => (.answered (call.report answer), { m with world := w })
      | (.error e, w) => (.refused (.connection e), { m with world := w })
    else (.refused (.invalidConnection h.id), m)

/-! ## Steps -/

/-- What an event does, before the pool is closed in case nobody refers to it any more. -/
def react (m : Machine σ) : Event σ → Outcome × Machine σ
  | .acquire key who => m.acquire D key who
  | .resume key => m.resume D key
  | .abandon key =>
    (.nothing, { m with waiters := without key m.waiters, drains := without key m.drains })
  | .release key => (.nothing, m.release D key)
  | .use key call => m.use D key call
  | .reconfigure change => (.nothing, (m.onWorld (·.reconfigure D change)).wakeAll)
  | .setTolerance n =>
    (.nothing, m.onWorld (·.onPool (·.onConfig ({ · with badConnectionTolerance := n }))))
  | .shutDown key => m.shutDown D key
  | .look key => m.look D key
  | .advance d => (.nothing, m.onWorld fun w => { w with now := w.now + d })
  | .disturb change => (.nothing, m.onWorld (·.onDrivers change))
  | .letGo => (.nothing, { m with held := false })

/-- Whether an event can happen. -/
def admits (m : Machine σ) : Event σ → Bool
  | .acquire key _ => m.held && m.isFree key
  | .shutDown key => m.held && m.isFree key
  | .reconfigure _ => m.held
  | .setTolerance _ => m.held
  | _ => true

/-- One event. -/
def step (m : Machine σ) (e : Event σ) : Outcome × Machine σ :=
  if m.admits e then
    let (o, m) := m.react D e
    (o, m.settle D)
  else (.nothing, m)

/-- A pool that nobody has used yet. -/
def start (pool : Pool) (drivers : σ) : Machine σ where
  world := { pool, drivers }

/-- A run: the events in order, with what their users see. -/
def runAll (m : Machine σ) : List (Event σ) → List Outcome × Machine σ
  | [] => ([], m)
  | e :: es =>
    let (o, m) := m.step D e
    let (os, m) := m.runAll es
    (o :: os, m)

end Machine

end ConnPool
