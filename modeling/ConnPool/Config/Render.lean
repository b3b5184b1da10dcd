/-
  A configuration as the text of a TOML document.

  The sections come in the order source, properties of the source, pool, each only if it is set, with
  an empty line between each two.  A section has one line for each setting that is given, in the order
  of the settings' keys.  Numbers of a document are signed words, so a configuration with a larger
  number has no text.
-/
import ConnPool.Config.Basic
import ConnPool.Toml.Writer

namespace ConnPool.Config

open ConnPool.Toml

/-- A setting with its key, if it is given. -/
def given (key : String) (write : α → List Char) : Option α → List (String × List Char)
  | none => []
  | some a => [(key, write a)]

def writeBool (b : Bool) : List Char :=
  (if b then "true" else "false").toList

def writeCount (n : Nat) : List Char :=
  Nat.toDigits 10 n

def sourceLines (s : SourceSettings) : List (String × List Char) :=
  [("driver", writeText s.driver), ("url", writeText s.url)] ++
    given "username" writeText s.username ++
    given "password" writeText s.password ++
    given "auto_commit" writeBool s.autoCommit ++
    given "isolation" (fun level => writeText level.label) s.isolation ++
    given "network_timeout" writeText s.networkTimeout

def propertyLines (p : Properties) : List (String × List Char) :=
  p.entries.map fun e => (e.1, writeText e.2)

def poolLines (p : PoolSettings) : List (String × List Char) :=
  given "max_active" writeCount p.maxActive ++
    given "max_idle" writeCount p.maxIdle ++
    given "max_checkout_time" writeText p.maxCheckoutTime ++
    given "time_to_wait" writeText p.timeToWait ++
    given "local_bad_connection_tolerance" writeCount p.badConnectionTolerance ++
    given "ping_enabled" writeBool p.pingEnabled ++
    given "ping_query" writeText p.pingQuery ++
    given "ping_connections_not_used_for" writeText p.pingNotUsedFor ++
    given "drain_timeout" writeText p.drainTimeout

/-- Whether a number can stand in a document. -/
def fits (n : Option Nat) : Bool :=
  n.getD 0 < signedLimit

/-- Whether every number of a configuration can stand in a document. -/
def writable (config : Config) : Bool :=
  match config.pool with
  | none => true
  | some p => fits p.maxActive && fits p.maxIdle && fits p.badConnectionTolerance

/-- The tables of a configuration, in order. -/
def tables (config : Config) : List (List Char) :=
  [writeTable "source" (sourceLines config.source)] ++
    (match config.source.properties with
    | none => []
    | some p => [writeTable "source.properties" (propertyLines p)]) ++
    (match config.pool with
    | none => []
    | some p => [writeTable "pool" (poolLines p)])

/-- The text of a configuration, if its numbers can stand in a document. -/
def render (config : Config) : Except ConfigError String :=
  if config.writable then .ok (String.ofList (writeTables config.tables))
  else .error .unwritable

end ConnPool.Config
