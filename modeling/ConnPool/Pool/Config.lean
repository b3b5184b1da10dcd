/-
  The limits of a pool and its policy, with nothing left open.

  A configuration file may leave settings out; `ofSettings` fills in the defaults and turns the
  written durations into spans, in a fixed order, so that the first that cannot be read is reported.
-/
import ConnPool.Config.Basic

namespace ConnPool

/-- The limits of a pool and its policy on unhealthy connections. -/
structure PoolConfig where
  /-- How many connections may be out at once. -/
  maxActive : Nat := 10
  /-- How many returned connections are kept. -/
  maxIdle : Nat := 5
  /-- How long a connection may be out before it can be reclaimed. -/
  maxCheckoutTime : Duration := .ofSecs 20
  /-- How long an acquisition waits before it looks again; zero waits for a notification. -/
  timeToWait : Duration := .ofSecs 20
  /-- How many bad connections beyond `maxIdle` one acquisition puts up with. -/
  badConnectionTolerance : Nat := 3
  /-- The statement of a probe. -/
  pingQuery : String := "NO PING QUERY SET"
  /-- Whether connections are probed. -/
  pingEnabled : Bool := false
  /-- How long a connection has to be unused before it is probed. -/
  pingNotUsedFor : Duration := .zero
  /-- How long a shutdown waits for the connections that are out. -/
  drainTimeout : Duration := .ofSecs 30
deriving DecidableEq, Repr

namespace PoolConfig

/-- The defaults. -/
def standard : PoolConfig := {}

/-- The pool that a configuration describes. -/
def ofSettings (s : PoolSettings) : Except ConfigError PoolConfig := do
  let maxCheckoutTime ← Config.readDuration? .maxCheckoutTime s.maxCheckoutTime
  let timeToWait ← Config.readDuration? .timeToWait s.timeToWait
  let pingNotUsedFor ← Config.readDuration? .pingNotUsedFor s.pingNotUsedFor
  let drainTimeout ← Config.readDuration? .drainTimeout s.drainTimeout
  pure {
    maxActive := s.maxActive.getD standard.maxActive
    maxIdle := s.maxIdle.getD standard.maxIdle
    maxCheckoutTime := maxCheckoutTime.getD standard.maxCheckoutTime
    timeToWait := timeToWait.getD standard.timeToWait
    badConnectionTolerance := s.badConnectionTolerance.getD standard.badConnectionTolerance
    pingQuery := s.pingQuery.getD standard.pingQuery
    pingEnabled := s.pingEnabled.getD standard.pingEnabled
    pingNotUsedFor := pingNotUsedFor.getD standard.pingNotUsedFor
    drainTimeout := drainTimeout.getD standard.drainTimeout }

/-- The pool of a configuration that may have no pool section. -/
def ofSettings? : Option PoolSettings → Except ConfigError PoolConfig
  | none => .ok standard
  | some s => ofSettings s

/-- How many bad connections one acquisition puts up with.  An acquisition that has met one needs this
as a word. -/
def badBudget (c : PoolConfig) : Nat :=
  c.maxIdle + c.badConnectionTolerance

/-- All limits and policies on one line. -/
def describe (c : PoolConfig) : String :=
  "PoolConfig \x7b max_active: " ++ toString c.maxActive ++
    ", max_idle: " ++ toString c.maxIdle ++
    ", max_checkout_time: " ++ c.maxCheckoutTime.reportText ++
    ", time_to_wait: " ++ c.timeToWait.reportText ++
    ", local_bad_connection_tolerance: " ++ toString c.badConnectionTolerance ++
    ", ping_query: " ++ Text.quoted c.pingQuery ++
    ", ping_enabled: " ++ toString c.pingEnabled ++
    ", ping_connections_not_used_for: " ++ c.pingNotUsedFor.reportText ++
    ", drain_timeout: " ++ c.drainTimeout.reportText ++ " \x7d"

end PoolConfig

end ConnPool
