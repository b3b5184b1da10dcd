/-
  A configuration out of the values of a TOML document.

  The keys of a table are read in the order of the document, and the first value that does not fit is
  reported; keys that no setting has are passed over.  A key that a table must have is missed only
  when the table ends.  So a mismatch in a section that comes first hides all that is wrong behind it.

  A section may also be written as an array, which is read by position and must have an element for
  every setting; elements behind those are passed over.  A date-time counts as a table with one key
  that no setting has.  An isolation level may be written as a table with the label for its only
  key and nothing in it.
-/
import ConnPool.Config.Basic
import ConnPool.Toml.Document

namespace ConnPool.Config

open ConnPool.Toml (Value Entries)

/-- What is read from a value, or the mismatch. -/
abbrev Decoded := Except ShapeError

/-! ## Single values -/

/-- A value as a mismatch names it. -/
def found : Value → String
  | .string s => "string " ++ Text.quoted s
  | .integer i => "integer `" ++ toString i ++ "`"
  | .float f => "floating point `" ++ f.text ++ "`"
  | .boolean b => "boolean `" ++ (if b then "true" else "false") ++ "`"
  | .dateTime _ => "map"
  | .array _ => "sequence"
  | .table _ => "map"

def mismatch (v : Value) (expected : String) : Decoded α :=
  .error (.invalidType (found v) expected)

def decodeString : Value → Decoded String
  | .string s => .ok s
  | v => mismatch v "a string"

def decodeBool : Value → Decoded Bool
  | .boolean b => .ok b
  | v => mismatch v "a boolean"

/-- A number of connections. -/
def decodeCount : Value → Decoded Nat
  | .integer (.ofNat n) => .ok n
  -- a number, but below zero
  | .integer i => .error (.invalidValue (found (.integer i)) "usize")
  | v => mismatch v "usize"

/-- The level with a label. -/
def isolationOfLabel (label : String) : Decoded Isolation :=
  match Isolation.ofLabel? label with
  | some level => .ok level
  | none => .error (.unknownVariant label (Isolation.all.map Isolation.label))

/-- Whether a value has nothing in it. -/
def isEmptyValue : Value → Bool
  | .array [] => true
  | .table [] => true
  | _ => false

/-- A level written as a table: its only key is the label, and nothing stands under it. -/
def decodeIsolationEntries : Entries → Decoded Isolation
  | [(label, v)] =>
    match isolationOfLabel label with
    | .error e => .error e
    | .ok level => if isEmptyValue v then .ok level else .error .notAName
  | _ => .error .notAName

def decodeIsolation : Value → Decoded Isolation
  | .string s => isolationOfLabel s
  | .table entries => decodeIsolationEntries entries
  | _ => .error .notAName

/-- The key under which a date-time shows its text when it is read as a table. -/
def dateTimeKey : String := "$__toml_private_datetime"

/-- A value as the entries of a table, if it counts as one. -/
def asEntries : Value → Option Entries
  | .table entries => some entries
  | .dateTime text => some [(dateTimeKey, .string text)]
  | _ => none

/-- A table with texts under its keys. -/
def decodeProperties (v : Value) : Decoded Properties :=
  match asEntries v with
  | none => mismatch v "a map"
  | some entries =>
    entries.foldlM (fun (p : Properties) (e : String × Value) => do
      let text ← decodeString e.2
      pure (p.set e.1 text)) Properties.empty

/-! ## Sections -/

/-- The settings of a source read so far; `driver` and `url` may still be missing. -/
structure PartialSource where
  driver : Option String := none
  url : Option String := none
  rest : SourceSettings := { driver := "", url := "" }

/-- One more key of a source section. -/
def PartialSource.read (p : PartialSource) (key : String) (v : Value) : Decoded PartialSource :=
  match key with
  | "driver" => do return { p with driver := some (← decodeString v) }
  | "url" => do return { p with url := some (← decodeString v) }
  | "username" => do return { p with rest := { p.rest with username := some (← decodeString v) } }
  | "password" => do return { p with rest := { p.rest with password := some (← decodeString v) } }
  | "auto_commit" => do return { p with rest := { p.rest with autoCommit := some (← decodeBool v) } }
  | "isolation" => do
    return { p with rest := { p.rest with isolation := some (← decodeIsolation v) } }
  | "network_timeout" => do
    return { p with rest := { p.rest with networkTimeout := some (← decodeString v) } }
  | "properties" => do
    return { p with rest := { p.rest with properties := some (← decodeProperties v) } }
  | _ => .ok p

/-- The settings of a source section that has ended. -/
def PartialSource.finish (p : PartialSource) : Decoded SourceSettings :=
  match p.driver, p.url with
  | none, _ => .error (.missingField "driver")
  | _, none => .error (.missingField "url")
  | some driver, some url => .ok { p.rest with driver, url }

/-- One more key of a pool section. -/
def readPoolKey (p : PoolSettings) (key : String) (v : Value) : Decoded PoolSettings :=
  match key with
  | "max_active" => do return { p with maxActive := some (← decodeCount v) }
  | "max_idle" => do return { p with maxIdle := some (← decodeCount v) }
  | "max_checkout_time" => do return { p with maxCheckoutTime := some (← decodeString v) }
  | "time_to_wait" => do return { p with timeToWait := some (← decodeString v) }
  | "local_bad_connection_tolerance" => do
    return { p with badConnectionTolerance := some (← decodeCount v) }
  | "ping_enabled" => do return { p with pingEnabled := some (← decodeBool v) }
  | "ping_query" => do return { p with pingQuery := some (← decodeString v) }
  | "ping_connections_not_used_for" => do
    return { p with pingNotUsedFor := some (← decodeString v) }
  | "drain_timeout" => do return { p with drainTimeout := some (← decodeString v) }
  | _ => .ok p

/-- The keys of a source section, in the order of its positions. -/
def sourceKeys : List String :=
  ["driver", "url", "username", "password", "auto_commit", "isolation", "network_timeout",
   "properties"]

/-- The keys of a pool section, in the order of its positions. -/
def poolKeys : List String :=
  ["max_active", "max_idle", "max_checkout_time", "time_to_wait",
   "local_bad_connection_tolerance", "ping_enabled", "ping_query",
   "ping_connections_not_used_for", "drain_timeout"]

/-- Reads the elements of an array as the values of keys.  `done` elements have been read. -/
def readPositions (expected : String) (step : σ → String → Value → Decoded σ) :
    (done : Nat) → List String → List Value → σ → Decoded σ
  | _, [], _, s => .ok s
  | done, _ :: _, [], _ => .error (.invalidLength done expected)
  | done, key :: keys, v :: vs, s => do
    readPositions expected step (done + 1) keys vs (← step s key v)

/-- Reads a section: the entries of a table in their order, or the elements of an array. -/
def readSection (name : String) (keys : List String) (step : σ → String → Value → Decoded σ)
    (start : σ) (v : Value) : Decoded σ :=
  match v with
  | .array elements =>
    readPositions ("struct " ++ name ++ " with " ++ toString keys.length ++ " elements") step 0
      keys elements start
  | v =>
    match asEntries v with
    | some entries => entries.foldlM (fun s e => step s e.1 e.2) start
    | none => mismatch v ("struct " ++ name)

def decodeSource (v : Value) : Decoded SourceSettings := do
  let p ← readSection "SourceSettings" sourceKeys PartialSource.read {} v
  p.finish

def decodePool (v : Value) : Decoded PoolSettings :=
  readSection "PoolSettings" poolKeys readPoolKey {} v

/-! ## The whole document -/

/-- The sections read so far. -/
structure Sections where
  source : Option SourceSettings := none
  pool : Option PoolSettings := none

def Sections.read (s : Sections) (key : String) (v : Value) : Decoded Sections :=
  match key with
  | "source" => do return { s with source := some (← decodeSource v) }
  | "pool" => do return { s with pool := some (← decodePool v) }
  | _ => .ok s

/-- The configuration that the entries of a document make. -/
def decode (entries : Entries) : Decoded Config := do
  let s ← entries.foldlM (fun (s : Sections) (e : String × Value) => s.read e.1 e.2) {}
  match s.source with
  | none => .error (.missingField "source")
  | some source => .ok { source, pool := s.pool }

/-- The configuration in the text of a document, checked. -/
def parse (text : String) : Except ConfigError Config :=
  match Toml.parse text with
  | none => .error .malformed
  | some entries =>
    match decode entries with
    | .error cause => .error (.shape cause)
    | .ok config => do
      validate config
      pure config

end ConnPool.Config
