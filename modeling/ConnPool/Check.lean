/-
  Checking a configuration: what a pool built from it would go by.

  A configuration is resolved by filling in the defaults and reading the durations; the account of the
  result has a text form and a JSON form.  Both show every setting, the password masked, so that an
  account does not tell what the password is, only whether there is one.
-/
import ConnPool.Config.Decode
import ConnPool.Json
import ConnPool.Pool.Config
import ConnPool.Source.Basic

namespace ConnPool

/-- A configuration with nothing left open. -/
structure Resolved where
  source : SourceConfig
  pool : PoolConfig
deriving DecidableEq, Repr

namespace Resolved

/-- The settings that a configuration comes to; the source is resolved first. -/
def ofConfig (config : Config) : Except ConfigError Resolved := do
  let source ← SourceConfig.ofSettings config.source
  let pool ← PoolConfig.ofSettings? config.pool
  pure { source, pool }

/-- What is shown of a password. -/
def mask (_password : String) : String := "********"

/-- The account as JSON, with the keys of every object in ascending order. -/
def toJson (r : Resolved) : Json :=
  .obj [
    ("pool", .obj [
      ("drain_timeout", .str r.pool.drainTimeout.settingText),
      ("local_bad_connection_tolerance", .num r.pool.badConnectionTolerance),
      ("max_active", .num r.pool.maxActive),
      ("max_checkout_time", .str r.pool.maxCheckoutTime.settingText),
      ("max_idle", .num r.pool.maxIdle),
      ("ping_connections_not_used_for", .str r.pool.pingNotUsedFor.settingText),
      ("ping_enabled", .bool r.pool.pingEnabled),
      ("ping_query", .str r.pool.pingQuery),
      ("time_to_wait", .str r.pool.timeToWait.settingText)]),
    ("source", .obj [
      ("auto_commit", .ofOption .bool r.source.autoCommit),
      ("driver", .str r.source.driver),
      ("isolation", .ofOption (fun level => .str level.label) r.source.isolation),
      ("network_timeout", .ofOption (fun d => .str d.settingText) r.source.networkTimeout),
      ("password", .ofOption (fun p => .str (mask p)) r.source.password),
      ("properties", .obj (r.source.properties.entries.map fun e => (e.1, .str e.2))),
      ("url", .str r.source.url),
      ("username", .ofOption .str r.source.username)])]

/-- A name and its value, the values of all lines in one column. -/
def row (name value : String) : String :=
  "  " ++ name ++ String.ofList (List.replicate (17 - name.length) ' ') ++ value ++ "\n"

/-- A setting that may be missing. -/
def shown (f : α → String) : Option α → String
  | none => "-"
  | some a => f a

/-- The account as lines of text. -/
def text (r : Resolved) : String :=
  "[source]\n" ++
    row "driver" r.source.driver ++
    row "url" r.source.url ++
    row "username" (shown id r.source.username) ++
    row "password" (shown mask r.source.password) ++
    row "auto_commit" (shown toString r.source.autoCommit) ++
    row "isolation" (shown Isolation.label r.source.isolation) ++
    row "network_timeout" (shown Duration.settingText r.source.networkTimeout) ++
    String.join (r.source.properties.entries.map fun e => row "property" (e.1 ++ " = " ++ e.2)) ++
    "[pool]\n" ++
    row "max_active" (toString r.pool.maxActive) ++
    row "max_idle" (toString r.pool.maxIdle) ++
    row "max_checkout" r.pool.maxCheckoutTime.settingText ++
    row "time_to_wait" r.pool.timeToWait.settingText ++
    row "bad_tolerance" (toString r.pool.badConnectionTolerance) ++
    row "ping" (if r.pool.pingEnabled then
      r.pool.pingQuery ++ " (idle > " ++ r.pool.pingNotUsedFor.settingText ++ ")" else "disabled") ++
    row "drain_timeout" r.pool.drainTimeout.settingText

/-- What a check of the file at `path` prints. -/
def output (r : Resolved) (path format : String) : String :=
  if format = "json" then r.toJson.pretty ++ "\n"
  else r.text ++ "✓ " ++ path ++ " is valid\n"

end Resolved

end ConnPool
