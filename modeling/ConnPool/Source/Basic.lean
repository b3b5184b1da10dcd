/-
  Where the connections of a pool come from.

  A source knows its target, the credentials and properties for it, and what every new connection
  starts with.  `newConnection` opens one connection: the driver gets the url and the driver
  properties, in which the caller's credentials stand under `user` and `password`; then the network
  timeout, the autocommit mode and the isolation level are set, as far as they are configured, and the
  mode only if it differs.  If one of these calls fails, the connection is closed and the failure of
  that call is reported, whether or not the connection could be closed.
-/
import ConnPool.Config.Basic
import ConnPool.Driver.Basic

namespace ConnPool

/-- The user on whose behalf a connection is opened. -/
structure Credentials where
  username : Option String := none
  password : Option String := none
deriving DecidableEq, Repr

/-- The target of the connections, and what every new connection starts with. -/
structure SourceConfig where
  driver : String
  url : String
  username : Option String := none
  password : Option String := none
  properties : Properties := Properties.empty
  autoCommit : Option Bool := none
  isolation : Option Isolation := none
  networkTimeout : Option Duration := none
deriving DecidableEq, Repr

/-- A source: its configuration, and the place of the driver that it uses. -/
structure Source where
  config : SourceConfig
  driver : Nat := 0
deriving DecidableEq, Repr

namespace SourceConfig

/-- The source that a configuration names. -/
def ofSettings (s : SourceSettings) : Except ConfigError SourceConfig := do
  let networkTimeout ← Config.readDuration? .networkTimeout s.networkTimeout
  pure {
    driver := s.driver
    url := s.url
    username := s.username
    password := s.password
    properties := s.properties.getD Properties.empty
    autoCommit := s.autoCommit
    isolation := s.isolation
    networkTimeout }

/-- The credentials used when a caller brings none. -/
def credentials (c : SourceConfig) : Credentials :=
  ⟨c.username, c.password⟩

/-- The properties for a connect on behalf of a caller. -/
def propertiesFor (c : SourceConfig) (who : Credentials) : Properties :=
  (c.properties.override "user" who.username).override "password" who.password

/-- Gives a new connection the configured network timeout. -/
def setTimeout (c : SourceConfig) (D : Drivers σ) (conn : Conn) : Calls σ Unit :=
  match c.networkTimeout with
  | some timeout => D.call conn (.setNetworkTimeout timeout)
  | none => pure ()

/-- Gives a new connection the configured autocommit mode, if it has another. -/
def setMode (c : SourceConfig) (D : Drivers σ) (conn : Conn) : Calls σ Unit :=
  match c.autoCommit with
  | some mode => do
    let current ← D.call conn .autoCommit
    if current = mode then pure () else D.call conn (.setAutoCommit mode)
  | none => pure ()

/-- Gives a new connection the configured isolation level. -/
def setLevel (c : SourceConfig) (D : Drivers σ) (conn : Conn) : Calls σ Unit :=
  match c.isolation with
  | some level => D.call conn (.setIsolation level)
  | none => pure ()

/-- Gives a new connection the configured timeout, mode and level. -/
def configure (c : SourceConfig) (D : Drivers σ) (conn : Conn) : Calls σ Unit := do
  c.setTimeout D conn
  c.setMode D conn
  c.setLevel D conn

/-- A source in brief, without its password. -/
def describe (c : SourceConfig) : String :=
  "UnpooledSource \x7b driver: " ++ Text.quoted c.driver ++ ", url: " ++ Text.quoted c.url ++
    ", username: " ++ Text.quotedOption c.username ++ ", .. \x7d"

end SourceConfig

namespace Source

/-- Opens a connection on behalf of a caller and configures it. -/
def newConnection (s : Source) (D : Drivers σ) (who : Credentials) (conn : Conn) : Calls σ Unit :=
  fun state =>
    match D.connect conn s.config.url (s.config.propertiesFor who) state with
    | (.error e, state) => (.error e, state)
    | (.ok (), state) =>
      match s.config.configure D conn state with
      | (.ok (), state) => (.ok (), state)
      -- a connection that is half configured is of no use to anybody
      | (.error e, state) => (.error e, Drivers.quietly (D.call conn .close) state)

end Source

end ConnPool
