/-
  What is open in a driver in memory.

  A rehearsal ends with every connection closed, and as long as it does not probe it never meets a bad
  one.  Both come from one ledger: the connections that are open in the driver are those of the wrappers
  of the pool, and no others (`World.Stocked`).  The driver of a rehearsal is obliging (`Memory.Stocks`):
  beside statements whose turn it is, only calls on closed connections fail.

  So a candidate of a pool that does not probe is good, a pass of it hands out or waits
  (`Stocked.pass`), and a return counts a bad connection just when nothing comes back
  (`Stocked.checkIn`).
-/
import ConnPool.Driver.Memory
import ConnPool.Proofs.Roster
import ConnPool.Proofs.Tally
import ConnPool.Proofs.Unprobed

namespace ConnPool

/-! ## What is open -/

namespace Memory

/-- There is a connection with the ticket, and it is not closed. -/
def IsOpen (m : Memory) (ticket : Nat) : Prop :=
  ∃ c, m.find? ticket = some c ∧ c.closed = false

/-- A driver in which no more fails than every `k`-th statement, whose tickets are below `next`, and in
    which these connections are open. -/
structure Stocks (k next : Nat) (open_ : Nat → Prop) (m : Memory) : Prop where
  connects : m.failConnect = false
  queries : m.failQueries = false
  rollbacks : m.failRollback = false
  liveness : m.failLiveness = false
  every : m.failEvery = k
  tickets : (m.conns.map (·.ticket)).Nodup
  below : ∀ t ∈ m.conns.map (·.ticket), t < next
  opened : ∀ t, m.IsOpen t ↔ open_ t

section Stocks

variable {k next t : Nat} {open_ open' : Nat → Prop} {m : Memory} {c : MemoryConn}

theorem update_tickets (m : Memory) (conn : MemoryConn) :
    (m.update conn).conns.map (·.ticket) = m.conns.map (·.ticket) := by
  simp only [update, List.map_map]
  refine List.map_congr_left fun c _ => ?_
  by_cases h : c.ticket = conn.ticket
  · exact (congrArg MemoryConn.ticket (if_pos h)).trans h.symm
  · exact congrArg MemoryConn.ticket (if_neg h)

/-- Another state of a connection matters only to the connection itself. -/
theorem isOpen_update {conn : MemoryConn} (hc : m.find? t = some c) (ht : conn.ticket = t) (u : Nat) :
    (m.update conn).IsOpen u ↔ if u = t then conn.closed = false else m.IsOpen u := by
  simp only [IsOpen, find?_update]
  by_cases hu : u = t
  · subst hu
    rw [if_pos rfl, hc, Option.map_some, if_pos ((ticket_of_find? hc).trans ht.symm)]
    exact ⟨fun ⟨_, he, hopen⟩ => Option.some.inj he ▸ hopen, fun h => ⟨conn, rfl, h⟩⟩
  · rw [if_neg hu]
    cases hf : m.find? u with
    | none => exact ⟨fun ⟨_, he, _⟩ => (nomatch he), fun ⟨_, he, _⟩ => (nomatch he)⟩
    | some d =>
      have hne : d.ticket ≠ conn.ticket := fun he =>
        hu ((ticket_of_find? hf).symm.trans (he.trans ht))
      rw [Option.map_some, if_neg hne]

/-- A new connection is open beside the others. -/
theorem isOpen_append {m' : Memory} {conn : MemoryConn} (hnew : m.find? conn.ticket = none)
    (hconn : conn.closed = false) (hconns : m'.conns = m.conns ++ [conn]) (u : Nat) :
    m'.IsOpen u ↔ m.IsOpen u ∨ u = conn.ticket := by
  have hfind : m'.find? u = (m.find? u).or (if conn.ticket = u then some conn else none) := by
    rw [find?, hconns, List.find?_append, List.find?_singleton, find?]
    simp only [decide_eq_true_eq]
  rw [IsOpen, hfind]
  by_cases hu : conn.ticket = u
  · subst hu
    rw [hnew, if_pos rfl, Option.none_or]
    exact ⟨fun _ => Or.inr rfl, fun _ => ⟨conn, rfl, hconn⟩⟩
  · rw [if_neg hu, Option.or_none]
    exact ⟨Or.inl, fun h => h.resolve_right fun he => hu he.symm⟩

/-- A connection that is open is there. -/
theorem Stocks.find (h : m.Stocks k next open_) (ht : open_ t) :
    ∃ c, m.find? t = some c ∧ c.closed = false :=
  (h.opened t).2 ht

theorem Stocks.congr (h : m.Stocks k next open_) (ho : ∀ u, open_ u ↔ open' u) :
    m.Stocks k next open' :=
  { h with opened := fun u => (h.opened u).trans (ho u) }

theorem Stocks.update {conn : MemoryConn} (h : m.Stocks k next open_) (hc : m.find? t = some c)
    (ht : conn.ticket = t) (ho : ∀ u, open' u ↔ if u = t then conn.closed = false else open_ u) :
    (m.update conn).Stocks k next open' where
  connects := h.connects
  queries := h.queries
  rollbacks := h.rollbacks
  liveness := h.liveness
  every := h.every
  tickets := by
    rw [update_tickets]
    exact h.tickets
  below := by
    rw [update_tickets]
    exact h.below
  opened u := by
    rw [isOpen_update hc ht, ho u]
    by_cases hu : u = t
    · rw [if_pos hu, if_pos hu]
    · rw [if_neg hu, if_neg hu]
      exact h.opened u

/-- A connection that is as open as it was. -/
theorem Stocks.touch {conn : MemoryConn} (h : m.Stocks k next open_) (hc : m.find? t = some c)
    (ht : conn.ticket = c.ticket) (hclosed : conn.closed = c.closed) :
    (m.update conn).Stocks k next open_ := by
  refine h.update hc (ht.trans (ticket_of_find? hc)) fun u => ?_
  by_cases hu : u = t
  · subst hu
    rw [if_pos rfl, hclosed, ← h.opened u, IsOpen, hc]
    exact ⟨fun ⟨_, he, hopen⟩ => Option.some.inj he ▸ hopen, fun h => ⟨c, rfl, h⟩⟩
  · rw [if_neg hu]

/-- Where nothing is open every connection is closed. -/
theorem Stocks.allClosed (h : m.Stocks k next open_) (hnone : ∀ t, ¬ open_ t) :
    ∀ c ∈ m.conns, c.closed = true := by
  intro c hc
  have hfound : m.find? c.ticket = some c := by
    obtain ⟨d, hd⟩ : ∃ d, m.find? c.ticket = some d :=
      Option.isSome_iff_exists.1 (List.find?_isSome.2 ⟨c, hc, decide_eq_true rfl⟩)
    obtain rfl := List.inj_on_of_nodup_map h.tickets (List.mem_of_find?_eq_some hd) hc
      (ticket_of_find? hd)
    exact hd
  by_contra hopen
  exact hnone c.ticket ((h.opened c.ticket).1 ⟨c, hfound, Bool.eq_false_iff.2 hopen⟩)

/-! ## What calls do to it -/

/-- A gentle call on a connection that is open succeeds. -/
theorem Stocks.callOpen (h : m.Stocks k next open_) (hc : m.find? t = some c) {call : RawCall}
    (hgentle : call.Gentle) :
    (m.callOpen c call).2.Stocks k next open_ ∧ ∃ a, (m.callOpen c call).1 = .ok a := by
  cases call with
  | isClosed => exact ⟨h, _, rfl⟩
  | autoCommit => exact ⟨h, _, rfl⟩
  | setAutoCommit on => exact ⟨h.touch hc rfl rfl, _, rfl⟩
  | setIsolation level => exact ⟨h.touch hc rfl rfl, _, rfl⟩
  | setNetworkTimeout timeout => exact ⟨h.touch hc rfl rfl, _, rfl⟩
  | commit => exact ⟨h.touch hc rfl rfl, _, rfl⟩
  | rollback =>
    rw [Memory.callOpen, h.rollbacks, if_neg Bool.false_ne_true]
    exact ⟨h.touch hc rfl rfl, _, rfl⟩
  | execute statement => exact absurd rfl (hgentle.2 statement)
  | close => exact absurd rfl hgentle.1

/-- **Gentle calls** open and close nothing, and succeed on a connection that is open. -/
theorem runs_gentle (conn : Conn) (call : RawCall) (hgentle : call.Gentle) :
    Calls.Runs (Stocks k next open_) (open_ conn.ticket) (drivers.call conn call) := by
  intro m h
  show (m.call conn.ticket call).2.Stocks k next open_ ∧
    (open_ conn.ticket → ∃ a, (m.call conn.ticket call).1 = .ok a)
  cases hc : m.find? conn.ticket with
  | none =>
    simp only [Memory.call, hc]
    refine ⟨h, fun ho => ?_⟩
    obtain ⟨c, hc', -⟩ := h.find ho
    nomatch hc.symm.trans hc'
  | some c =>
    have hopened := h.callOpen hc hgentle
    cases hclosed : c.closed with
    | false =>
      have he : m.call conn.ticket call = m.callOpen c call := by
        simp only [Memory.call, hc, callConn, hclosed, h.liveness, Bool.false_eq_true, if_false]
        cases call with
        | isClosed => simp only [Memory.callOpen, hclosed]
        | close => exact absurd rfl hgentle.1
        | _ => rfl
      rw [he]
      exact ⟨hopened.1, fun _ => hopened.2⟩
    | true =>
      have he : (m.call conn.ticket call).2 = m := by
        simp only [Memory.call, hc, callConn, hclosed, h.liveness, Bool.false_eq_true, if_false,
          if_true]
        cases call with
        | close => exact absurd rfl hgentle.1
        | _ => rfl
      rw [he]
      refine ⟨h, fun ho => ?_⟩
      obtain ⟨c', hc', hopen⟩ := h.find ho
      obtain rfl := Option.some.inj (hc.symm.trans hc')
      nomatch hclosed.symm.trans hopen

/-- A connection that is open says so. -/
theorem Stocks.isClosed (h : m.Stocks k next open_) {conn : Conn} (ho : open_ conn.ticket) :
    drivers.call conn .isClosed m = (.ok false, m) := by
  obtain ⟨c, hc, hclosed⟩ := h.find ho
  show m.call conn.ticket .isClosed = _
  simp only [Memory.call, hc, callConn, h.liveness, hclosed, Bool.false_eq_true, if_false]

/-- A statement is noted and counted, and fails if it is its turn. -/
theorem execute_eq {statement : String} (hqueries : m.failQueries = false) :
    m.execute c statement =
      (if 0 < m.failEvery ∧ (m.statements + 1) % m.failEvery = 0 then
          .error ⟨.query, "statement failed: " ++ statement⟩
        else .ok (),
        { m.update { c with executed := c.executed.push statement } with
          statements := m.statements + 1 }) := by
  have hnone : (m.update { c with executed := c.executed.push statement }).failQueries = false :=
    hqueries
  simp only [Memory.execute, hnone, Bool.false_eq_true, if_false]
  show (if 0 < m.failEvery ∧ (m.statements + 1) % m.failEvery = 0 then _ else _) = _
  by_cases hturn : 0 < m.failEvery ∧ (m.statements + 1) % m.failEvery = 0
  · rw [if_pos hturn, if_pos hturn]
    rfl
  · rw [if_neg hturn, if_neg hturn]
    rfl

/-- **A statement** opens and closes nothing.  On a connection that is open it is counted, and fails if
    it is its turn. -/
theorem Stocks.execute (h : m.Stocks k next open_) (conn : Conn) (statement : String) :
    (drivers.call conn (.execute statement) m).2.Stocks k next open_ ∧
    (open_ conn.ticket → (drivers.call conn (.execute statement) m).2.statements = m.statements + 1 ∧
      ((drivers.call conn (.execute statement) m).1 = .ok () ↔
        ¬ (0 < k ∧ (m.statements + 1) % k = 0))) := by
  show (m.call conn.ticket (.execute statement)).2.Stocks k next open_ ∧
    (open_ conn.ticket → (m.call conn.ticket (.execute statement)).2.statements = m.statements + 1 ∧
      ((m.call conn.ticket (.execute statement)).1 = .ok () ↔
        ¬ (0 < k ∧ (m.statements + 1) % k = 0)))
  cases hc : m.find? conn.ticket with
  | none =>
    simp only [Memory.call, hc]
    refine ⟨h, fun ho => ?_⟩
    obtain ⟨c, hc', -⟩ := h.find ho
    nomatch hc.symm.trans hc'
  | some c =>
    cases hclosed : c.closed with
    | true =>
      have he : m.call conn.ticket (.execute statement) = (.error (closedError c), m) := by
        simp only [Memory.call, hc, callConn, hclosed, if_true]
      rw [he]
      refine ⟨h, fun ho => ?_⟩
      obtain ⟨c', hc', hopen⟩ := h.find ho
      obtain rfl := Option.some.inj (hc.symm.trans hc')
      nomatch hclosed.symm.trans hopen
    | false =>
      have he : m.call conn.ticket (.execute statement) = m.execute c statement := by
        simp only [Memory.call, hc, callConn, hclosed, Bool.false_eq_true, if_false,
          Memory.callOpen]
      have hnoted : (m.update { c with executed := c.executed.push statement }).Stocks k next open_ :=
        h.touch hc rfl rfl
      rw [he, execute_eq h.queries, h.every]
      refine ⟨{ hnoted with }, fun _ => ⟨rfl, ?_⟩⟩
      by_cases hturn : 0 < k ∧ (m.statements + 1) % k = 0
      · rw [if_pos hturn]
        exact ⟨nofun, fun hnot => absurd hturn hnot⟩
      · rw [if_neg hturn]
        exact ⟨fun _ => hturn, fun _ => rfl⟩

/-- **A close** closes its connection and no other. -/
theorem Stocks.close (h : m.Stocks k next open_) (conn : Conn) :
    (drivers.call conn .close m).2.Stocks k next fun u => open_ u ∧ u ≠ conn.ticket := by
  show (m.call conn.ticket .close).2.Stocks k next _
  cases hc : m.find? conn.ticket with
  | none =>
    simp only [Memory.call, hc]
    refine h.congr fun u => ⟨fun hu => ⟨hu, ?_⟩, And.left⟩
    rintro rfl
    obtain ⟨c, hc', -⟩ := h.find hu
    nomatch hc.symm.trans hc'
  | some c =>
    have hticket := ticket_of_find? hc
    simp only [Memory.call, hc, callConn]
    refine h.update hc hticket fun u => ?_
    by_cases hu : u = conn.ticket
    · rw [if_pos hu]
      exact ⟨fun ho => absurd hu ho.2, nofun⟩
    · rw [if_neg hu]
      exact ⟨And.left, fun ho => ⟨ho, hu⟩⟩

theorem runs_rollback (conn : Conn) :
    Calls.Runs (Stocks k next open_) (open_ conn.ticket) (drivers.rollbackIfManual conn) :=
  Drivers.runs_rollbackIfManual fun call hgentle => runs_gentle conn call hgentle

theorem Stocks.rolledBack (h : m.Stocks k next open_) (conn : Conn) :
    (drivers.rollbackIfManual conn m).2.Stocks k next open_ :=
  (runs_rollback conn m h).1

theorem Stocks.giveUp (h : m.Stocks k next open_) (conn : Conn) :
    (drivers.giveUp conn m).Stocks k next fun u => open_ u ∧ u ≠ conn.ticket :=
  (h.rolledBack conn).close conn

/-- To give up what was closed already is to do nothing. -/
theorem Stocks.giveUp_again {conn : Conn}
    (h : m.Stocks k next fun u => open_ u ∧ u ≠ conn.ticket) :
    (drivers.giveUp conn m).Stocks k next fun u => open_ u ∧ u ≠ conn.ticket :=
  (h.giveUp conn).congr fun _ => ⟨And.left, fun ho => ⟨ho, ho.2⟩⟩

theorem Stocks.probed (h : m.Stocks k next open_) (config : PoolConfig) (conn : Conn) :
    (drivers.probe config conn m).2.Stocks k next open_ := by
  have hprobe : Calls.Runs (Stocks k next open_) False (drivers.probe config conn) :=
    Calls.runs_bind (fun m h => ⟨(h.execute conn config.pingQuery).1, nofun⟩)
      fun _ m h => ⟨h.rolledBack conn, nofun⟩
  exact (hprobe m h).1

/-- A connection that is open is healthy, unless its probe fails and closes it. -/
theorem Stocks.examined (h : m.Stocks k next open_) {config : PoolConfig} {now : Instant}
    {c : Wrapper} (ho : open_ c.conn.ticket) {healthy : Bool} {m' : Memory}
    (he : drivers.isHealthy config now c m = (healthy, m')) :
    (healthy = true ∧ m'.Stocks k next open_) ∨
    (healthy = false ∧ config.pingEnabled = true ∧
      m'.Stocks k next fun u => open_ u ∧ u ≠ c.conn.ticket) := by
  have hasked := h.isClosed ho
  rcases drivers.isHealthy_cases config now c m with ⟨r, m₁, hr, hnot, -⟩ | ⟨m₁, hr, -, e⟩ |
    ⟨m₁, m₂, hr, -, hp, e⟩ | ⟨m₁, err, m₂, hr, hdue, hp, e⟩
  · exact absurd (Prod.mk.inj (hr.symm.trans hasked)).1 hnot
  all_goals
    obtain ⟨-, rfl⟩ := Prod.mk.inj (hr.symm.trans hasked)
    obtain ⟨rfl, rfl⟩ := Prod.mk.inj (e.symm.trans he)
  · exact Or.inl ⟨rfl, h⟩
  · have hprobed := h.probed config c.conn
    rw [hp] at hprobed
    exact Or.inl ⟨rfl, hprobed⟩
  · have hprobed := h.probed config c.conn
    rw [hp] at hprobed
    exact Or.inr ⟨rfl, (Bool.and_eq_true_iff.1 hdue).1, hprobed.close c.conn⟩

/-- A connection is opened under a ticket that is new. -/
theorem Stocks.connect (h : m.Stocks k next open_) (url : String) (properties : Properties) :
    (m.connect next url properties).1 = .ok () ∧
      (m.connect next url properties).2.Stocks k (next + 1) fun u => open_ u ∨ u = next := by
  have he : m.connect next url properties = (.ok (), { m with
      conns := m.conns ++ [{ ticket := next, number := m.conns.length + 1, url, properties }] }) := by
    rw [Memory.connect, if_neg (by rw [h.connects]; exact Bool.false_ne_true)]
  rw [he]
  have hnew : m.find? next = none := by
    refine List.find?_eq_none.2 fun c hc he => ?_
    have hbelow := h.below c.ticket (List.mem_map_of_mem hc)
    have hticket : c.ticket = next := of_decide_eq_true he
    omega
  refine ⟨rfl, h.connects, h.queries, h.rollbacks, h.liveness, h.every, ?_, ?_, fun u => ?_⟩
  · rw [List.map_append, List.map_singleton, List.nodup_append]
    refine ⟨h.tickets, List.pairwise_singleton _ _, fun t ht u hu => ?_⟩
    have hbelow := h.below t ht
    rw [List.mem_singleton.1 hu]
    exact Nat.ne_of_lt hbelow
  · intro t ht
    rw [List.map_append, List.map_singleton] at ht
    rcases List.mem_append.1 ht with ht | ht
    · exact Nat.lt_succ_of_lt (h.below t ht)
    · rw [List.mem_singleton.1 ht]
      exact Nat.lt_succ_self next
  · rw [isOpen_append hnew rfl rfl u, h.opened u]

/-- **A new connection** can be had, and is open. -/
theorem Stocks.newConnection (h : m.Stocks k next open_) (src : Source) (who : Credentials)
    (conn : Conn) (hticket : conn.ticket = next) :
    (src.newConnection drivers who conn m).1 = .ok () ∧
      (src.newConnection drivers who conn m).2.Stocks k (next + 1) fun u => open_ u ∨ u = next := by
  obtain ⟨hok, hopened⟩ := h.connect src.config.url (src.config.propertiesFor who)
  have hconnect : drivers.connect conn src.config.url (src.config.propertiesFor who) m =
      m.connect next src.config.url (src.config.propertiesFor who) := by
    rw [← hticket]
    rfl
  rw [← hconnect] at hok hopened
  unfold Source.newConnection
  rcases hc : drivers.connect conn src.config.url (src.config.propertiesFor who) m with ⟨r, m₁⟩
  rw [hc] at hok hopened
  obtain rfl : r = .ok () := hok
  obtain ⟨hconfigured, hsure⟩ := src.config.runs_configure
    (fun call hgentle => runs_gentle conn call hgentle) m₁ hopened
  obtain ⟨a, ha⟩ := hsure (Or.inr hticket)
  rcases hf : src.config.configure drivers conn m₁ with ⟨r, m₂⟩
  rw [hf] at hconfigured ha
  obtain rfl : r = .ok () := ha
  simp only [hf]
  exact ⟨trivial, hconfigured⟩

end Stocks

/-! ## Statements -/

/-- What runs no statement is not counted. -/
theorem runs_uncounted (n : Nat) (conn : Conn) (call : RawCall)
    (h : ∀ statement, call ≠ .execute statement) :
    Calls.Runs (fun m => m.statements = n) False (drivers.call conn call) := by
  intro m hm
  refine ⟨?_, nofun⟩
  show (m.call conn.ticket call).2.statements = n
  unfold Memory.call
  cases m.find? conn.ticket with
  | none => exact hm
  | some c =>
    cases call with
    | execute statement => exact absurd rfl (h statement)
    | close => exact hm
    | rollback =>
      simp only [callConn, Memory.callOpen]
      split
      · exact hm
      · split <;> exact hm
    | _ =>
      simp only [callConn, Memory.callOpen]
      split <;> exact hm

theorem runs_connect (n : Nat) (conn : Conn) (url : String) (properties : Properties) :
    Calls.Runs (fun m => m.statements = n) False (drivers.connect conn url properties) := by
  intro m hm
  refine ⟨?_, nofun⟩
  show (m.connect conn.ticket url properties).2.statements = n
  unfold Memory.connect
  split
  all_goals exact hm

end Memory

/-- **A pool that does not probe leaves the count of statements to the holders.** -/
theorem World.statements_ledger (n : Nat) : World.Ledger Memory.drivers fun w _ =>
    w.pool.config.pingEnabled = false → w.drivers.statements = n :=
  World.unprobed_ledger (I := fun m : Memory => m.statements = n) (Memory.runs_connect n)
    (Memory.runs_uncounted n)

/-! ## The connections of a pool -/

namespace World

/-- The connections that are open in the driver are those of the wrappers, and no two wrappers have
    one. -/
structure Stocked (k : Nat) (w : World Memory) (l : List Wrapper) : Prop where
  drivers : w.drivers.Stocks k w.pool.nextTicket (· ∈ l.map (·.conn.ticket))
  once : (l.map (·.conn.ticket)).Nodup

section Stocked

variable {k : Nat} {w w' : World Memory} {l : List Wrapper} {c : Wrapper}

theorem stocked_start (source : Source) (config : PoolConfig) (k : Nat) :
    Stocked k { pool := .new source config, drivers := { failEvery := k } }
      (Pool.new source config).wrappers := by
  refine ⟨⟨rfl, rfl, rfl, rfl, rfl, List.nodup_nil, nofun, fun t => ⟨?_, nofun⟩⟩, List.nodup_nil⟩
  rintro ⟨c, hc, -⟩
  nomatch hc

/-- Without the first wrapper its connection is none of them. -/
theorem Stocked.mem_tail (h : w.Stocked k (c :: l)) (t : Nat) :
    t ∈ (c :: l).map (·.conn.ticket) ∧ t ≠ c.conn.ticket ↔ t ∈ l.map (·.conn.ticket) := by
  have hnot : c.conn.ticket ∉ l.map (·.conn.ticket) := (List.nodup_cons.1 h.once).1
  rw [List.map_cons, List.mem_cons]
  constructor
  · rintro ⟨he | ht, hne⟩
    · exact absurd he hne
    · exact ht
  · intro ht
    exact ⟨Or.inr ht, fun he => hnot (he ▸ ht)⟩

/-- A connection that is closed leaves the ledger. -/
theorem Stocked.tail (h : w.Stocked k (c :: l)) (hnext : w'.pool.nextTicket = w.pool.nextTicket)
    (hclosed : w'.drivers.Stocks k w.pool.nextTicket fun t =>
      t ∈ (c :: l).map (·.conn.ticket) ∧ t ≠ c.conn.ticket) : w'.Stocked k l := by
  refine ⟨?_, (List.nodup_cons.1 h.once).2⟩
  rw [hnext]
  exact hclosed.congr h.mem_tail

/-- An examination of a connection of the ledger leaves it there, unless it closes it. -/
theorem Stocked.examined (h : w.Stocked k (c :: l)) {fit : Bool}
    (hfit : w.isFit Memory.drivers c = (fit, w')) :
    (w'.drivers.Stocks k w.pool.nextTicket (· ∈ (c :: l).map (·.conn.ticket))) ∨
    (fit = false ∧ w'.drivers.Stocks k w.pool.nextTicket fun t =>
      t ∈ (c :: l).map (·.conn.ticket) ∧ t ≠ c.conn.ticket) := by
  rcases isFit_cases Memory.drivers hfit with ⟨-, e⟩ | ⟨-, -, rfl⟩
  · have hmem : c.conn.ticket ∈ (c :: l).map (·.conn.ticket) := List.mem_cons_self
    rcases h.drivers.examined hmem e with ⟨-, hopen⟩ | ⟨hno, -, hclosed⟩
    · exact Or.inl hopen
    · exact Or.inr ⟨hno, hclosed⟩
  · exact Or.inl h.drivers

/-- **The connections that are open in the driver are a ledger.** -/
theorem stocked_ledger (k : Nat) : Ledger Memory.drivers (Stocked k) where
  perm h hl := ⟨h.drivers.congr fun _ => (hl.map _).mem_iff, (hl.map _).nodup_iff.1 h.once⟩
  lists _ _ _ _ h := ⟨h.drivers, h.once⟩
  opened {w l who s} _ hs h := by
    have hnew := (h.drivers.newConnection w.pool.source who w.nextConn rfl).2
    rw [hs] at hnew
    refine ⟨hnew.congr fun t => ?_, List.nodup_cons.2 ⟨fun hmem => ?_, h.once⟩⟩
    · rw [List.map_cons, List.mem_cons, or_comm]
      rfl
    · obtain ⟨d, hd, -⟩ := h.drivers.find hmem
      have hbelow := h.drivers.below _ (List.mem_map_of_mem (List.mem_of_find?_eq_some hd))
      rw [Memory.ticket_of_find? hd] at hbelow
      exact Nat.lt_irrefl _ hbelow
  refused {w _ who _ _} _ hs h := by
    have hnew := (h.drivers.newConnection w.pool.source who w.nextConn rfl).1
    rw [hs] at hnew
    nomatch hnew
  fit hfit h := by
    rcases h.examined hfit with hopen | ⟨hno, -⟩
    · refine ⟨?_, h.once⟩
      rw [pool_of_isFit _ hfit]
      exact hopen
    · nomatch hno
  unfit {w w' _ c} hfit h := by
    have hnext : (w'.discard Memory.drivers c).pool.nextTicket = w.pool.nextTicket := by
      rw [discard_pool, pool_of_isFit _ hfit]
      rfl
    rcases h.examined hfit with hopen | ⟨-, hclosed⟩
    · exact h.tail hnext (hopen.giveUp c.conn)
    · exact h.tail hnext hclosed.giveUp_again
  rolledBack {_ _ c} h := ⟨h.drivers.rolledBack c.conn, h.once⟩
  reclaimed {_ _ c} h := ⟨h.drivers.rolledBack c.conn, h.once⟩
  stamped _ h := ⟨h.drivers, h.once⟩
  kept h := ⟨h.drivers, h.once⟩
  closed {_ _ c} h := h.tail rfl (h.drivers.close c.conn)
  discarded {_ _ c} h := h.tail rfl (h.drivers.giveUp c.conn)

/-! ## Without a probe nothing is bad -/

/-- A valid wrapper is fit. -/
theorem Stocked.fit (h : w.Stocked k (c :: l)) (hvalid : c.id ∈ w.pool.valid)
    (hping : w.pool.config.pingEnabled = false) : (w.isFit Memory.drivers c).1 = true := by
  rcases hfit : w.isFit Memory.drivers c with ⟨fit, w'⟩
  rcases isFit_cases Memory.drivers hfit with ⟨-, e⟩ | ⟨hnot, -⟩
  · have hmem : c.conn.ticket ∈ (c :: l).map (·.conn.ticket) := List.mem_cons_self
    rcases h.drivers.examined hmem e with ⟨hyes, -⟩ | ⟨-, hping', -⟩
    · exact hyes
    · nomatch hping.symm.trans hping'
  · exact absurd hvalid hnot

theorem Stocked.good (h : w.Stocked k (c :: l)) (hvalid : c.id ∈ w.pool.valid)
    (hping : w.pool.config.pingEnabled = false) : (w.isGood Memory.drivers c).1 = true := by
  have hfine := h.fit hvalid hping
  rcases hg : w.isGood Memory.drivers c with ⟨good, w'⟩
  rcases isGood_cases Memory.drivers hg with ⟨-, hfit⟩ | ⟨w₁, r, hfit, hr, hgood⟩
  · rw [hfit] at hfine
    nomatch hfine
  · have hmem : c.conn.ticket ∈ (c :: l).map (·.conn.ticket) := List.mem_cons_self
    have hfound := (stocked_ledger k).fit hfit h
    obtain ⟨_, ha⟩ := (Memory.runs_rollback c.conn _ hfound.drivers).2 hmem
    exact hgood.2 ((Prod.mk.inj hr).1.symm.trans ha)

/-- A search finds a good candidate, or it has to wait. -/
theorem Stocked.search (h : w.Stocked k w.pool.wrappers) (hroster : w.pool.Roster w.pool.wrappers)
    (hping : w.pool.config.pingEnabled = false) (hactive : 0 < w.pool.config.maxActive)
    (who : Credentials) :
    (∃ c w₁ w₂, w.takeCandidate Memory.drivers who = (.found c, w₁) ∧
      w₁.isGood Memory.drivers c = (true, w₂)) ∨
    ∃ w₁, w.takeCandidate Memory.drivers who = (.mustWait, w₁) := by
  rcases ht : w.takeCandidate Memory.drivers who with ⟨candidate, w₁⟩
  cases candidate with
  | found c =>
    have hstock := (stocked_ledger k).rounds.takeCandidate_found ht h
    have hfound := (roster_ledger Memory.drivers).rounds.takeCandidate_found ht hroster
    have hvalid : c.id ∈ w₁.pool.valid := (hfound.valid c.id).2 List.mem_cons_self
    have hconfig := (takeCandidate_found_pruned Memory.drivers ht).1.config
    have hgood := hstock.good hvalid (hconfig ▸ hping)
    exact Or.inl ⟨c, w₁, _, rfl, Prod.ext hgood rfl⟩
  | mustWait => exact Or.inr ⟨w₁, rfl⟩
  | failed e =>
    rcases takeCandidate_failed Memory.drivers ht with ⟨-, -, cause, s, hs, -⟩ | ⟨-, -, hnone, -⟩
    · have hnew := (h.drivers.newConnection w.pool.source who w.nextConn rfl).1
      rw [hs] at hnew
      nomatch hnew
    · exact absurd hnone (Nat.ne_of_gt hactive)

/-- **A pass that does not probe** throws nothing away, and does not fail. -/
theorem Stocked.pass (h : w.Stocked k w.pool.wrappers) (hroster : w.pool.Roster w.pool.wrappers)
    (hping : w.pool.config.pingEnabled = false) (hactive : 0 < w.pool.config.maxActive)
    (who : Credentials) (startedAt : Instant) (budget r : Nat) :
    (∀ e, (w.tryOut Memory.drivers who startedAt budget r).1 ≠ .failed e) ∧
      w.rejects Memory.drivers who budget = [] := by
  rcases h.search hroster hping hactive who with ⟨c, w₁, w₂, ht, hg⟩ | ⟨w₁, ht⟩
  · refine ⟨?_, rejects_of_good budget ht hg⟩
    unfold tryOut
    simp only [ht, hg]
    intro e he
    cases he
  · refine ⟨?_, rejects_of_mustWait budget ht⟩
    unfold tryOut
    simp only [ht]
    intro e he
    cases he

/-- **A return to a pool that does not probe** counts a bad connection just when nothing comes back. -/
theorem Stocked.checkIn (h : w.Stocked k w.pool.wrappers)
    (hroster : w.pool.Roster w.pool.wrappers) (hping : w.pool.config.pingEnabled = false)
    (id : Nat) : (w.checkIn Memory.drivers id).pool.counters.badConnections +
        w.pool.active.length =
      w.pool.counters.badConnections + 1 + (w.checkIn Memory.drivers id).pool.active.length := by
  rcases w.checkIn_tally Memory.drivers id with ⟨-, ha, hc⟩ | ⟨c, front, back, ha, -, ha', hc⟩
  · rw [ha, hc]
    rfl
  · have hl : w.pool.wrappers.Perm (c :: (front ++ back ++ w.pool.idle)) := by
      rw [Pool.wrappers, ha]
      exact List.perm_middle.append_right w.pool.idle
    have hvalid : c.id ∈ w.pool.valid :=
      (hroster.valid c.id).2 (List.mem_map_of_mem (hl.mem_iff.2 List.mem_cons_self))
    have hfit := ((stocked_ledger k).perm h hl).fit hvalid hping
    have hnone : (w.checkIn Memory.drivers id).pool.counters.badConnections =
        w.pool.counters.badConnections := by
      rw [hc, tallyOfReturn, if_pos hfit]
      rfl
    rw [hnone, ha', ha, List.length_append, List.length_append, List.length_cons]
    omega

end Stocked

end World

end ConnPool
