/-
  A rehearsal of a pool's work, on a clock of its own.

  Some workers share a pool over one driver in memory.  Each does the same a number of times: it
  acquires a connection, runs one statement, holds the connection for a while, and returns it.  There
  is one thread.  Workers that can run stand in a queue, and the first of them runs until it has to
  wait, for the end of its hold or for a connection.  A return puts all workers that wait for a
  connection at the end of the queue, in the order in which they began to wait, and the worker that
  returned goes on at once.  When nobody can run, the clock moves on by a millisecond, and the workers
  whose time has come are queued in the order in which their timers were set.

  `step` is one turn of this; `run` takes turns until every worker has finished.  The number of turns
  that it may take is computed from the workload: a worker holds a connection in every millisecond
  that passes, so there are no more of them than milliseconds of holding.
-/
import ConnPool.Driver.Memory
import ConnPool.Json
import ConnPool.Pool.Machine
import ConnPool.Pool.Stats

namespace ConnPool

/-- What the workers are told to do. -/
structure Workload where
  tasks : Nat
  iterations : Nat
  /-- How long a worker holds a connection, in milliseconds. -/
  holdMillis : Nat
  /-- Every statement whose place is a multiple of this fails; none if it is zero. -/
  failEvery : Nat
deriving DecidableEq, Repr

structure Simulation where
  load : Workload
  /-- The pool; a worker's place is its key. -/
  machine : Machine Memory
  /-- The workers that can run, the next one first. -/
  queue : List Nat
  /-- The timers of workers that wait, in the order in which they were set. -/
  timers : List (Nat × Instant) := []
  /-- How many iterations each worker has left, the one under way included. -/
  remaining : List Nat
  acquireFailures : Nat := 0
  statementFailures : Nat := 0

/-- What a rehearsal has shown. -/
structure SimulationReport where
  load : Workload
  acquireFailures : Nat
  statementFailures : Nat
  connectionsOpened : Nat
  elapsedMillis : Nat
  /-- Connections that were still out when the pool was shut down. -/
  forceClosed : Nat
  stats : PoolStats
deriving DecidableEq, Repr

namespace Simulation

/-- The statement that every worker runs. -/
def statement : String := "SELECT 1"

/-- The start: every worker can run, in the order of their places. -/
def start (pool : Pool) (load : Workload) : Simulation where
  load
  machine := .start pool { failEvery := load.failEvery }
  queue := List.range load.tasks
  remaining := List.replicate load.tasks load.iterations

/-- An event of the pool. -/
def event (s : Simulation) (e : Event Memory) : Outcome × Simulation :=
  let (o, m) := s.machine.step Memory.drivers e
  (o, { s with machine := m })

/-- A worker has fewer iterations left. -/
def leave (s : Simulation) (worker iterations : Nat) : Simulation :=
  { s with remaining := s.remaining.set worker iterations }

/-- Sets a worker's timer. -/
def setTimer (s : Simulation) (worker : Nat) (deadline : Instant) : Simulation :=
  { s with timers := s.timers ++ [(worker, deadline)] }

/-- A worker returns its connection.  Those who wait for one are queued, unless their timers have
queued them already, and their timers are taken down. -/
def release (s : Simulation) (worker : Nat) : Simulation :=
  let woken := (s.machine.waiters.map (·.1)).filter fun w => !s.queue.contains w
  let s := (s.event (.release worker)).2
  { s with
    queue := s.queue ++ woken
    timers := s.timers.filter fun t => !woken.contains t.1 }

/-- A worker has a connection: it runs its statement. -/
def work (s : Simulation) (worker : Nat) : Simulation :=
  match s.event (.use worker (.execute statement)) with
  | (.refused _, s) => { s with statementFailures := s.statementFailures + 1 }
  | (_, s) => s

/-- A worker waits for a connection; a slice without end has no timer. -/
def await (s : Simulation) (worker : Nat) : Simulation :=
  match (s.machine.waiter? worker).bind Waiter.deadline? with
  | some deadline => s.setTimer worker deadline
  | none => s

/-- A worker holds its connection. -/
def hold (s : Simulation) (worker : Nat) : Simulation :=
  s.setTimer worker (s.machine.world.now + .ofMillis s.load.holdMillis)

/-- A worker runs until it has to wait, given what came of its latest acquisition and how many
iterations follow that one.  No acquisition breaks off here, since the budget of a configuration that was
read fits in a word. -/
def carryOn (worker : Nat) : (iterations : Nat) → Outcome × Simulation → Simulation
  | iterations, (.acquired _, s) =>
    let s := s.work worker
    if 0 < s.load.holdMillis then (s.leave worker iterations).hold worker
    else
      let s := s.release worker
      match iterations with
      | 0 => s.leave worker 0
      | n + 1 => carryOn worker n (s.event (.acquire worker none))
  | iterations, (.waiting, s) => (s.leave worker iterations).await worker
  | iterations, (_, s) =>
    let s := { s with acquireFailures := s.acquireFailures + 1 }
    match iterations with
    | 0 => s.leave worker 0
    | n + 1 => carryOn worker n (s.event (.acquire worker none))

/-- A worker starts its next iteration, if one is left. -/
def iterate (s : Simulation) (worker : Nat) : (iterations : Nat) → Simulation
  | 0 => s.leave worker 0
  | n + 1 => carryOn worker n (s.event (.acquire worker none))

/-- A worker at the head of the queue runs: it returns the connection that it has held, goes on with
its wait, or starts. -/
def runWorker (s : Simulation) (worker : Nat) : Simulation :=
  let iterations := (s.remaining[worker]?).getD 0
  if (s.machine.handle? worker).isSome then (s.release worker).iterate worker iterations
  else if (s.machine.waiter? worker).isSome then
    carryOn worker iterations (s.event (.resume worker))
  else s.iterate worker iterations

/-- A millisecond passes, and those whose time has come can run. -/
def tick (s : Simulation) : Simulation :=
  let s := (s.event (.advance (.ofMillis 1))).2
  let now := s.machine.world.now
  -- the queue is empty whenever the clock moves
  let (expired, timers) := s.timers.partition fun t => t.2 ≤ now
  { s with queue := expired.map (·.1), timers }

/-- Whether every worker has finished: none can run, none holds a connection and none waits. -/
def finished (s : Simulation) : Bool :=
  s.queue.isEmpty && s.machine.handles.isEmpty && s.machine.waiters.isEmpty

/-- One turn. -/
def step (s : Simulation) : Simulation :=
  match s.queue with
  | worker :: rest => { s with queue := rest }.runWorker worker
  | [] => s.tick

/-- Takes turns until every worker has finished, but not more than a number of them. -/
def runFor : (turns : Nat) → Simulation → Simulation
  | 0, s => s
  | turns + 1, s => if s.finished then s else runFor turns s.step

/-- As many turns as a workload can take: its milliseconds of holding, and for each worker a turn at
the start, one for every return, and one for every millisecond. -/
def turns (load : Workload) : Nat :=
  let cycles := load.tasks * load.iterations
  let millis := cycles * load.holdMillis
  millis + load.tasks * (cycles + millis + 1) + 1

/-- The rehearsal of a workload, up to the point where every worker has finished. -/
def run (pool : Pool) (load : Workload) : Simulation :=
  runFor (turns load) (start pool load)

/-- The report of a finished rehearsal.  The numbers are those before the pool is shut down, and the
drain timeout is one that `Machine.shutDown` allows for. -/
def report (s : Simulation) : SimulationReport :=
  let (o, m) := s.machine.step Memory.drivers (.shutDown s.load.tasks)
  { load := s.load
    acquireFailures := s.acquireFailures
    statementFailures := s.statementFailures
    connectionsOpened := m.world.drivers.conns.length
    elapsedMillis := saturate s.machine.world.now.millis
    forceClosed := match o with | .shutDown n => n | _ => 0
    stats := s.machine.world.pool.stats }

end Simulation

/-- Rehearses the work of the pool that a configuration describes. -/
def Workload.simulate (load : Workload) (config : Config) : Except ConfigError SimulationReport := do
  let pool ← Pool.ofConfig config 0
  pure (Simulation.run pool load).report

namespace SimulationReport

def toJson (r : SimulationReport) : Json :=
  .obj [
    ("tasks", .num r.load.tasks),
    ("iterations", .num r.load.iterations),
    ("acquire_failures", .num r.acquireFailures),
    ("statement_failures", .num r.statementFailures),
    ("connections_opened", .num r.connectionsOpened),
    ("elapsed_ms", .num r.elapsedMillis),
    ("force_closed", .num r.forceClosed),
    ("stats", r.stats.toJson)]

/-- The lines of the text form. -/
def text (r : SimulationReport) : String :=
  toString r.load.tasks ++ " tasks × " ++ toString r.load.iterations ++ " iterations in " ++
    toString r.elapsedMillis ++ "ms\n" ++
    PoolStats.row "connectionsOpened" (toString r.connectionsOpened) ++ "\n" ++
    PoolStats.row "acquireFailures" (toString r.acquireFailures) ++ "\n" ++
    PoolStats.row "statementFailures" (toString r.statementFailures) ++ "\n" ++
    r.stats.text ++ "\n"

end SimulationReport

end ConnPool
