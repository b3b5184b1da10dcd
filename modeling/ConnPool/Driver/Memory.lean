/-
  A driver whose connections live in memory.

  It reaches no target; it is there to rehearse with.  Switches make connects, statements, rollbacks
  or liveness checks fail, or every n-th statement over all connections.  Everything that was done to
  a connection can be looked up afterwards.  A connection starts in autocommit mode and without any
  setting; once it is closed, by a call or by `kill`, every call on it fails but the two that ask
  whether it is closed and that close it.
-/
import ConnPool.Driver.Basic

namespace ConnPool

/-- A connection in memory, and what was done to it. -/
structure MemoryConn where
  ticket : Nat
  /-- Its place among the connections of the driver, from one. -/
  number : Nat
  url : String
  properties : Properties
  closed : Bool := false
  autoCommit : Bool := true
  rollbacks : Nat := 0
  commits : Nat := 0
  isolation : Option Isolation := none
  networkTimeout : Option Duration := none
  executed : Array String := #[]
deriving Repr

/-- A driver in memory. -/
structure Memory where
  failConnect : Bool := false
  failQueries : Bool := false
  failRollback : Bool := false
  failLiveness : Bool := false
  /-- Every statement whose place is a multiple of this fails; none if it is zero. -/
  failEvery : Nat := 0
  /-- The statements counted so far, over all connections. -/
  statements : Nat := 0
  /-- The connections opened so far, in order. -/
  conns : List MemoryConn := []
deriving Repr

namespace Memory

/-- The driver after a call, with what is left of one connection. -/
def update (m : Memory) (conn : MemoryConn) : Memory :=
  { m with conns := m.conns.map fun c => if c.ticket = conn.ticket then conn else c }

/-- The answer of a call on a closed connection. -/
def closedError (conn : MemoryConn) : ConnectionError :=
  ⟨.closed, "memory connection " ++ toString conn.number ++ " is closed"⟩

/-- Runs a statement: it is noted, and then it may fail.  A statement that fails because all do is not
counted. -/
def execute (m : Memory) (conn : MemoryConn) (statement : String) :
    Except ConnectionError Unit × Memory :=
  let m := m.update { conn with executed := conn.executed.push statement }
  -- from here on the statement is noted, whatever comes of it
  let error := ConnectionError.mk .query ("statement failed: " ++ statement)
  if m.failQueries then (.error error, m)
  else
    let place := m.statements + 1
    let m := { m with statements := place }
    if 0 < m.failEvery ∧ place % m.failEvery = 0 then (.error error, m) else (.ok (), m)

/-- A call on a connection that is open, other than the questions about its liveness and its end. -/
def callOpen (m : Memory) (conn : MemoryConn) :
    (call : RawCall) → Except ConnectionError call.Answer × Memory
  | .isClosed => (.ok conn.closed, m)
  | .autoCommit => (.ok conn.autoCommit, m)
  | .setAutoCommit on => (.ok (), m.update { conn with autoCommit := on })
  | .setIsolation level => (.ok (), m.update { conn with isolation := some level })
  | .setNetworkTimeout timeout => (.ok (), m.update { conn with networkTimeout := some timeout })
  | .execute statement => m.execute conn statement
  | .commit => (.ok (), m.update { conn with commits := conn.commits + 1 })
  | .rollback =>
    if m.failRollback then (.error ⟨.other, "rollback failed"⟩, m)
    else (.ok (), m.update { conn with rollbacks := conn.rollbacks + 1 })
  | .close => (.ok (), m.update { conn with closed := true })

/-- A call on a connection. -/
def callConn (m : Memory) (conn : MemoryConn) (call : RawCall) :
    Except ConnectionError call.Answer × Memory :=
  match call with
  | .isClosed =>
    if m.failLiveness then (.error ⟨.other, "liveness check failed"⟩, m) else (.ok conn.closed, m)
  | .close => (.ok (), m.update { conn with closed := true })
  | call => if conn.closed then (.error (closedError conn), m) else m.callOpen conn call

/-- The connection with a ticket. -/
def find? (m : Memory) (ticket : Nat) : Option MemoryConn :=
  m.conns.find? fun c => c.ticket = ticket

/-- Opens a connection. -/
def connect (m : Memory) (ticket : Nat) (url : String) (properties : Properties) :
    Except ConnectionError Unit × Memory :=
  if m.failConnect then (.error ⟨.refused, "connection refused: " ++ url⟩, m)
  else
    let conn : MemoryConn := { ticket, number := m.conns.length + 1, url, properties }
    (.ok (), { m with conns := m.conns ++ [conn] })

/-- Answers a call.  There is nothing to say about a connection that was never opened here. -/
def call (m : Memory) (ticket : Nat) (call : RawCall) :
    Except ConnectionError call.Answer × Memory :=
  match m.find? ticket with
  | some conn => m.callConn conn call
  | none => (.error ⟨.other, "unknown connection"⟩, m)

/-- Switches to be turned; those that are not given stay as they are. -/
structure Switches where
  failConnect : Option Bool := none
  failQueries : Option Bool := none
  failRollback : Option Bool := none
  failLiveness : Option Bool := none
  failEvery : Option Nat := none
deriving Repr

/-- Turns switches. -/
def turn (m : Memory) (s : Switches) : Memory :=
  { m with
    failConnect := s.failConnect.getD m.failConnect
    failQueries := s.failQueries.getD m.failQueries
    failRollback := s.failRollback.getD m.failRollback
    failLiveness := s.failLiveness.getD m.failLiveness
    failEvery := s.failEvery.getD m.failEvery }

/-- The property under which a connection, given by its place, was opened. -/
def property (m : Memory) (number : Nat) (name : String) : Option String :=
  (m.conns.find? fun c => c.number = number).bind (·.properties.get? name)

/-- The target drops a connection, given by its place. -/
def kill (m : Memory) (number : Nat) : Memory :=
  { m with conns := m.conns.map fun c => if c.number = number then { c with closed := true } else c }

/-- The number of connections that are not closed. -/
def openCount (m : Memory) : Nat :=
  m.conns.countP fun c => !c.closed

/-- A pool's view of one driver in memory. -/
def drivers : Drivers Memory where
  connect conn url properties := fun m => m.connect conn.ticket url properties
  call conn call := fun m => m.call conn.ticket call

/-! ## Laws -/

theorem ticket_of_find? {m : Memory} {t : Nat} {c : MemoryConn} (h : m.find? t = some c) : c.ticket = t :=
  of_decide_eq_true (List.find?_some (p := fun c : MemoryConn => decide (c.ticket = t)) h)

/-- A connection with another state is found in that state, and all others as they are. -/
theorem find?_update (m : Memory) (conn : MemoryConn) (t : Nat) :
    (m.update conn).find? t =
      (m.find? t).map fun c => if c.ticket = conn.ticket then conn else c := by
  have hticket : ∀ c : MemoryConn,
      (if c.ticket = conn.ticket then conn else c).ticket = c.ticket := by
    intro c
    by_cases h : c.ticket = conn.ticket
    · rw [if_pos h, h]
    · rw [if_neg h]
  simp only [find?, update, List.find?_map, Function.comp_def, hticket]

end Memory

end ConnPool
