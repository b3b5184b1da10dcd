/-
  The settings of a pool, as a configuration file gives them.

  A configuration names the target of the connections (`SourceSettings`) and, if it has a pool
  section, the limits and the policy of the pool (`PoolSettings`).  Durations are kept as they are
  written; resolving them is the work of the source and of the pool.  A setting that is not given is
  `none`.

  `validate` looks at a configuration in a fixed order and reports the first thing that is wrong.
-/
import ConnPool.Config.Error
import ConnPool.Duration.Text
import ConnPool.Isolation
import ConnPool.Properties

namespace ConnPool

/-- The target of the connections, and what every new connection starts with. -/
structure SourceSettings where
  driver : String
  url : String
  username : Option String := none
  password : Option String := none
  autoCommit : Option Bool := none
  isolation : Option Isolation := none
  networkTimeout : Option String := none
  properties : Option Properties := none
deriving DecidableEq, Repr

/-- The limits of a pool and its policy on unhealthy connections. -/
structure PoolSettings where
  maxActive : Option Nat := none
  maxIdle : Option Nat := none
  maxCheckoutTime : Option String := none
  timeToWait : Option String := none
  badConnectionTolerance : Option Nat := none
  pingEnabled : Option Bool := none
  pingQuery : Option String := none
  pingNotUsedFor : Option String := none
  drainTimeout : Option String := none
deriving DecidableEq, Repr

structure Config where
  source : SourceSettings
  pool : Option PoolSettings := none
deriving DecidableEq, Repr

namespace Config

/-- The span that a text stands for; `path` is the name of the setting, for the error. -/
def readSpan (path text : String) : Except ConfigError Duration :=
  match Duration.readSetting text with
  | some d => .ok d
  | none => .error (.invalidDuration path text)

/-- The span that the text of a setting stands for. -/
def readDuration (field : DurationField) (text : String) : Except ConfigError Duration :=
  readSpan field.path text

/-- The span of a setting that may be missing. -/
def readDuration? (field : DurationField) : Option String → Except ConfigError (Option Duration)
  | none => .ok none
  | some text => (readDuration field text).map some

/-- Whether probing is switched on without a statement to probe with. -/
def lacksPingQuery (pool : PoolSettings) : Bool :=
  pool.pingEnabled = some true && (pool.pingQuery.map Text.isBlankText).getD true

/-- The first thing wrong with a pool section, if any. -/
def validatePool (pool : PoolSettings) : Except ConfigError Unit := do
  if pool.maxActive = some 0 then throw (.invalid .noActiveConnections)
  let _ ← readDuration? .maxCheckoutTime pool.maxCheckoutTime
  let _ ← readDuration? .timeToWait pool.timeToWait
  let _ ← readDuration? .pingNotUsedFor pool.pingNotUsedFor
  let _ ← readDuration? .drainTimeout pool.drainTimeout
  if lacksPingQuery pool then throw (.invalid .missingPingQuery)

/-- The first thing wrong with a configuration, if any. -/
def validate (config : Config) : Except ConfigError Unit := do
  if Text.isBlankText config.source.url then throw (.invalid .emptyUrl)
  let _ ← readDuration? .networkTimeout config.source.networkTimeout
  match config.pool with
  | none => pure ()
  | some pool => validatePool pool

/-- A configuration to start from: the pool's defaults, written out, for a target. -/
def scaffold (driver url : String) : Config where
  source := { driver, url, autoCommit := some false }
  pool := some {
    maxActive := some 10
    maxIdle := some 5
    maxCheckoutTime := some "20s"
    timeToWait := some "20s"
    badConnectionTolerance := some 3
    pingEnabled := some false
    pingNotUsedFor := some "0ms"
    drainTimeout := some "30s" }

end Config

end ConnPool
