/-
  A driver that follows a script.

  It notes every call in a log and then looks for a rule that makes the call fail.  A rule names a
  call and may name a connection; it may hold only a number of times.  The first rule that applies is
  used, and a call that fails changes nothing but that rule.  A connection has two flags, whether it
  commits by itself and whether it is closed, and nothing checks the second.
-/
import ConnPool.Driver.Basic

namespace ConnPool

/-- A rule of a script. -/
structure Rule where
  /-- The name of the call that fails. -/
  call : String
  /-- The number of the connection, if the rule is only about one. -/
  conn : Option Nat := none
  /-- How often the rule still holds, if not forever. -/
  times : Option Nat := none
  error : ConnectionError := ⟨.other, "scripted"⟩
deriving Repr

structure ScriptedConn where
  ticket : Nat
  closed : Bool := false
  autoCommit : Bool
deriving Repr

structure Scripted where
  /-- Whether a new connection commits by itself. -/
  autoCommit : Bool := true
  rules : List Rule := []
  /-- The connections opened so far, in order; they are numbered from one. -/
  conns : List ScriptedConn := []
  log : Array String := #[]
deriving Repr

namespace Scripted

/-- The name of a call. -/
def callName : RawCall → String
  | .isClosed => "is_closed"
  | .autoCommit => "auto_commit"
  | .setAutoCommit _ => "set_auto_commit"
  | .setIsolation _ => "set_isolation"
  | .setNetworkTimeout _ => "set_network_timeout"
  | .execute _ => "execute"
  | .commit => "commit"
  | .rollback => "rollback"
  | .close => "close"

/-- The argument of a call. -/
def argument : RawCall → String
  | .setAutoCommit on => if on then "true" else "false"
  | .setIsolation level => level.label
  | .setNetworkTimeout timeout => toString timeout.millis
  | .execute statement => statement
  | _ => ""

/-- Whether a rule makes a call on a connection fail. -/
def Rule.applies (call : String) (number : Nat) (r : Rule) : Bool :=
  r.call = call && r.conn.all (· == number) && r.times.all (0 < ·)

/-- The rule after it was used once. -/
def Rule.used (r : Rule) : Rule :=
  { r with times := r.times.map (· - 1) }

/-- The first rule that applies, and the rules after its use. -/
def useRule (call : String) (number : Nat) : List Rule → Option ConnectionError × List Rule
  | [] => (none, [])
  | r :: rest =>
    if Rule.applies call number r then (some r.error, Rule.used r :: rest)
    else
      let (e, rest) := useRule call number rest
      (e, r :: rest)

/-- Notes a call and says whether it fails. -/
def note (s : Scripted) (call : String) (number : Nat) (argument : String) :
    Option ConnectionError × Scripted :=
  let (e, rules) := useRule call number s.rules
  let entry := toString number ++ "." ++ call ++ "(" ++ argument ++ ")"
  (e, { s with rules, log := s.log.push entry })

/-- Properties as they stand in the log. -/
def propertiesText (p : Properties) : String :=
  String.intercalate "," (p.entries.map fun e => e.1 ++ "=" ++ e.2)

/-- Opens a connection; a connect that fails uses up no number. -/
def connect (s : Scripted) (ticket : Nat) (url : String) (properties : Properties) :
    Except ConnectionError Unit × Scripted :=
  match s.note "connect" (s.conns.length + 1) (url ++ ";" ++ propertiesText properties) with
  | (some e, s) => (.error e, s)
  | (none, s) => (.ok (), { s with conns := s.conns ++ [{ ticket, autoCommit := s.autoCommit }] })

/-- The driver with one connection changed. -/
def update (s : Scripted) (conn : ScriptedConn) : Scripted :=
  { s with conns := s.conns.map fun c => if c.ticket = conn.ticket then conn else c }

/-- What a call does that does not fail. -/
def perform (s : Scripted) (conn : ScriptedConn) : (call : RawCall) → call.Answer × Scripted
  | .isClosed => (conn.closed, s)
  | .autoCommit => (conn.autoCommit, s)
  | .setAutoCommit on => ((), s.update { conn with autoCommit := on })
  | .close => ((), s.update { conn with closed := true })
  | .setIsolation _ => ((), s)
  | .setNetworkTimeout _ => ((), s)
  | .execute _ => ((), s)
  | .commit => ((), s)
  | .rollback => ((), s)

/-- Answers a call.  There is nothing to say about a connection that was never opened here. -/
def call (s : Scripted) (ticket : Nat) (call : RawCall) :
    Except ConnectionError call.Answer × Scripted :=
  match s.conns.find? (fun c => c.ticket = ticket) with
  | none => (.error ⟨.other, "unknown connection"⟩, s)
  | some conn =>
    let number := s.conns.findIdx (fun c => c.ticket = ticket) + 1
    match s.note (callName call) number (argument call) with
    | (some e, s) => (.error e, s)
    | (none, s) =>
      let (answer, s) := s.perform conn call
      (.ok answer, s)

end Scripted

end ConnPool
