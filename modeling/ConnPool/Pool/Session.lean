/-
  A pool driven by named operations on a clock that only moves when it is told to.

  A session starts operations one after the other.  An acquisition or a shutdown that cannot end at
  once stays pending under its name, and so does the handle that an acquisition ends with.  After
  every operation, and after every millisecond of an advance, the pending operations that can go on do
  so, in the order in which they were started; whoever they wake goes on after them.

  A round of going on wakes others only if a shutdown starts in it, and nothing that a woken
  acquisition does wakes anybody; so after two rounds all that can go on has done so (`settle`).
-/
import ConnPool.Driver.Bank
import ConnPool.Pool.Machine
import ConnPool.Pool.Stats

namespace ConnPool

/-- One operation of a session.  Operations on drivers name the driver by its place. -/
inductive Operation
  | advance (millis : Nat)
  | acquire (name : String) (who : Option Credentials)
  | shutDown (name : String)
  | abandon (name : String)
  | reconfigure (change : Change)
  | setTolerance (n : Nat)
  | poolConfig
  | sourceConfig
  | counts
  | stats
  | isShutDown
  | describe
  | logStats
  | letGo
  | release (name : String)
  | info (name : String)
  | isValid (name : String)
  | describeHandle (name : String)
  | use (name : String) (call : RawCall)
  | inspect (place : Nat)
  | tamper (place : Nat) (how : Tampering)
  | property (place number : Nat) (name : String)

/-- What an operation gives back. -/
inductive Answer
  | nothing
  | pending
  | noHandle
  | handle (h : Handle)
  | failed (e : PoolError)
  | overflowed
  | forceClosed (n : Nat)
  | abandoned (n : Nat)
  | poolConfig (c : PoolConfig)
  | sourceConfig (c : SourceConfig)
  | counts (active idle : Nat)
  | stats (s : PoolStats)
  | flag (b : Bool)
  | text (s : String)
  | logged (fields : List (String × String))
  | driver (d : Option Driver)
  | property (value : Option String)

/-- What is seen after an operation. -/
structure Report where
  answer : Answer
  /-- The pool's numbers, while somebody holds the pool. -/
  stats : Option PoolStats
  /-- Pending operations that ended, with their results. -/
  done : List (String × Answer)
  /-- What the scripted drivers noted. -/
  log : List String

structure Session where
  machine : Machine Bank
  nextKey : Key := 0
  /-- The names of the operations started so far. -/
  names : List (Key × String) := []

namespace Session

def start (pool : Pool) (bank : Bank) : Session where
  machine := .start pool bank

/-- One event of the machine. -/
def step (s : Session) (e : Event Bank) : Outcome × Session :=
  let (o, m) := s.machine.step Bank.drivers e
  (o, { s with machine := m })

def nameOf (s : Session) (key : Key) : String :=
  (s.names.lookup key).getD ""

/-- The key of a handle that is out. -/
def handleKey? (s : Session) (name : String) : Option Key :=
  (s.machine.handles.find? fun h => s.nameOf h.1 = name).map (·.1)

/-- The keys of the pending operations, in the order in which they were started. -/
def pending (s : Session) : List Key :=
  (s.machine.waiters.map (·.1) ++ s.machine.drains.map (·.1)).mergeSort

/-- The result of an operation that has ended. -/
def result? : Outcome → Option Answer
  | .acquired h => some (.handle h)
  | .refused e => some (.failed e)
  | .overflowed => some .overflowed
  | .shutDown n => some (.forceClosed n)
  | _ => none

/-- Lets a pending operation go on, if it can. -/
def poll (s : Session) (key : Key) : Option (String × Answer) × Session :=
  let name := s.nameOf key
  let e := if (s.machine.waiter? key).isSome then Event.resume key else Event.look key
  let (o, s) := s.step e
  ((result? o).map fun a => (name, a), s)

/-- Lets each of some pending operations go on that can. -/
def round (s : Session) : List Key → List (String × Answer) × Session
  | [] => ([], s)
  | key :: keys =>
    let (ended, s) := s.poll key
    let (more, s) := s.round keys
    (ended.toList ++ more, s)

/-- Lets all pending operations go on that can, and then those that they have woken. -/
def settle (s : Session) : List (String × Answer) × Session :=
  let (first, s) := s.round s.pending
  let (second, s) := s.round s.pending
  (first ++ second, s)

/-- Moves the clock, a millisecond at a time as long as an operation is pending.  `done` are the
operations that have ended so far. -/
def advance (s : Session) (done : List (String × Answer)) : Nat → List (String × Answer) × Session
  | 0 => (done, s)
  | millis + 1 =>
    if s.pending.isEmpty then (done, (s.step (.advance (.ofMillis (millis + 1)))).2)
    else
      let (ended, s) := (s.step (.advance (.ofMillis 1))).2.settle
      s.advance (done ++ ended) millis

/-- Starts an operation under a name. -/
def begin (s : Session) (name : String) (event : Key → Event Bank) : Answer × Session :=
  let key := s.nextKey
  let s := { s with nextKey := key + 1, names := (key, name) :: s.names }
  let (o, s) := s.step (event key)
  ((result? o).getD .pending, s)

/-- Does something with the handle of a name. -/
def withHandle (s : Session) (name : String) (f : Key → Handle → Answer × Session) :
    Answer × Session :=
  match s.handleKey? name with
  | none => (.noHandle, s)
  | some key =>
    match s.machine.handle? key with
    | none => (.noHandle, s)
    | some h => f key h

/-- The answer of a call on a handle. -/
def callAnswer : Outcome → Answer
  | .answered (some b) => .flag b
  | .refused e => .failed e
  | _ => .nothing

/-- An operation on a handle, on a driver, or on the clock; these need no pool. -/
def performAnyway (s : Session) : Operation → Answer × Session
  | .abandon name =>
    let keys := s.pending.filter fun key => s.nameOf key = name
    (.abandoned keys.length, keys.foldl (fun s key => (s.step (.abandon key)).2) s)
  | .release name => s.withHandle name fun key _ => (.nothing, (s.step (.release key)).2)
  | .info name => s.withHandle name fun _ h => (.handle h, s)
  | .isValid name => s.withHandle name fun _ h =>
    (.flag (s.machine.world.pool.valid.contains h.id), s)
  | .describeHandle name => s.withHandle name fun _ h =>
    (.text (h.describe (s.machine.world.pool.valid.contains h.id)), s)
  | .use name call => s.withHandle name fun key _ =>
    let (o, s) := s.step (.use key call)
    (callAnswer o, s)
  | .inspect place => (.driver s.machine.world.drivers[place]?, s)
  | .tamper place how => (.nothing, (s.step (.disturb (·.tamper place how))).2)
  | .property place number name =>
    (.property (s.machine.world.drivers.property place number name), s)
  | _ => (.noHandle, s)

/-- An operation while somebody holds the pool. -/
def perform (s : Session) (op : Operation) : Answer × Session :=
  let pool := s.machine.world.pool
  match op with
  | .acquire name who => s.begin name fun key => .acquire key who
  | .shutDown name => s.begin name fun key => .shutDown key
  | .reconfigure change => (.nothing, (s.step (.reconfigure change)).2)
  | .setTolerance n => (.nothing, (s.step (.setTolerance n)).2)
  | .poolConfig => (.poolConfig pool.config, s)
  | .sourceConfig => (.sourceConfig pool.source.config, s)
  | .counts => (.counts pool.active.length pool.idle.length, s)
  | .stats => (.stats pool.stats, s)
  | .isShutDown => (.flag pool.closed, s)
  | .describe => (.text pool.describe, s)
  | .logStats => (.logged (pool.stats.logFields pool.source.config.url), s)
  | .letGo => (.nothing, (s.step .letGo).2)
  | op => s.performAnyway op

/-- What the scripted drivers noted since this was last asked. -/
def takeLogs (s : Session) : List String × Session :=
  let (log, bank) := Bank.takeLogs s.machine.world.drivers
  (log, { s with machine := s.machine.onWorld ({ · with drivers := bank }) })

/-- The pool's numbers, while somebody holds the pool. -/
def stats? (s : Session) : Option PoolStats :=
  if s.machine.held then some s.machine.world.pool.stats else none

/-- One operation, and what the pending ones do because of it. -/
def operate (s : Session) (op : Operation) : Report × Session :=
  let (answer, done, s) : Answer × List (String × Answer) × Session :=
    match op with
    | .advance millis =>
      let (done, s) := s.advance [] millis
      (.nothing, done, s)
    | op =>
      let (answer, s) := if s.machine.held then s.perform op else s.performAnyway op
      let (done, s) := s.settle
      (answer, done, s)
  let (log, s) := s.takeLogs
  ({ answer, stats := s.stats?, done, log }, s)

/-- Operations one after the other. -/
def operateAll (s : Session) : List Operation → List Report × Session
  | [] => ([], s)
  | op :: ops =>
    let (r, s) := s.operate op
    let (rs, s) := s.operateAll ops
    (r :: rs, s)

/-- The end of a session: pending operations are given up, the handles are returned in the order of
their names, and then nobody holds the pool any more.  The numbers are those before the pool goes. -/
def finish (s : Session) : Option PoolStats × List String × Bank :=
  let s := s.pending.foldl (fun s key => (s.step (.abandon key)).2) s
  let keys := (s.machine.handles.map fun h => (s.nameOf h.1, h.1)).mergeSort
    fun a b => a.1 ≤ b.1
  let s := keys.foldl (fun s k => (s.step (.release k.2)).2) s
  let stats := s.stats?
  let (_, s) := s.step .letGo
  let (log, s) := s.takeLogs
  (stats, log, s.machine.world.drivers)

end Session

end ConnPool
