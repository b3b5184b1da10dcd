/-
  No connection is lost, and none is used after it was closed.

  `Accounted` says that the connections that a pool has are just those that it opened and did not
  close.  Each operation on one connection moves it from one side to the other: opening adds it, and
  every way out of the lists ends with a close (`Accounted.close`).  What an examination does is known
  only together with what follows it, for a connection that fails its probe is closed twice.

  So the accounts are a ledger, and are right after every step.  When the pool is gone it has no
  connection any more, so all that were opened have been closed.
-/
import ConnPool.Proofs.Exchanges
import ConnPool.Proofs.Ownership
import Mathlib.Tactic.Tauto

namespace ConnPool

variable {σ : Type}

/-! ## The accounts -/

/-- The connections `conns` are just those that were opened and not closed, in a log after which the
    next ticket is `next`. -/
structure Accounted (log : List Exchange) (next : Nat) (conns : List Conn) : Prop where
  opened : (openedIn log).Nodup
  below : ∀ c ∈ openedIn log, c.ticket < next
  nodup : conns.Nodup
  places : ∀ c, c ∈ openedIn log ↔ c ∈ conns ∨ c ∈ closedIn log
  apart : ∀ c ∈ conns, c ∉ closedIn log

namespace Accounted

variable {log log' : List Exchange} {next : Nat} {conn : Conn} {conns conns' : List Conn}

theorem empty : Accounted [] 1 [] :=
  ⟨List.nodup_nil, nofun, List.nodup_nil, fun _ => ⟨nofun, by rintro (h | h) <;> nomatch h⟩, nofun⟩

theorem perm (h : Accounted log next conns) (hl : conns.Perm conns') :
    Accounted log next conns' where
  opened := h.opened
  below := h.below
  nodup := hl.nodup_iff.1 h.nodup
  places c := by rw [← hl.mem_iff, h.places c]
  apart c hc := h.apart c (hl.mem_iff.2 hc)

/-- Tickets may be left out. -/
theorem mono (h : Accounted log next conns) {next' : Nat} (hle : next ≤ next') :
    Accounted log next' conns where
  opened := h.opened
  below c hc := Nat.lt_of_lt_of_le (h.below c hc) hle
  nodup := h.nodup
  places := h.places
  apart := h.apart

theorem quiet (h : Accounted log next conns) (hq : Quiet log log') : Accounted log' next conns where
  opened := by
    rw [hq.openedIn_eq]
    exact h.opened
  below := by
    rw [hq.openedIn_eq]
    exact h.below
  nodup := h.nodup
  places c := by rw [hq.openedIn_eq, hq.closedIn_eq, h.places c]
  apart := by
    rw [hq.closedIn_eq]
    exact h.apart

/-- A connection that the pool has is closed, and the pool has it no more. -/
theorem close (h : Accounted log next (conn :: conns)) (hc : Closes conn log log') :
    Accounted log' next conns where
  opened := by
    rw [hc.about.openedIn_eq]
    exact h.opened
  below := by
    rw [hc.about.openedIn_eq]
    exact h.below
  nodup := (List.nodup_cons.1 h.nodup).2
  places c := by
    rw [hc.about.openedIn_eq, hc.mem_closedIn_iff, h.places c, List.mem_cons]
    tauto
  apart c hmem hclosed := by
    rcases (hc.mem_closedIn_iff c).1 hclosed with rfl | hclosed
    · exact (List.nodup_cons.1 h.nodup).1 hmem
    · exact h.apart c (List.mem_cons_of_mem _ hmem) hclosed

/-- A connection is opened under the next ticket, and the pool has it. -/
theorem enter (h : Accounted log next conns) (ho : Opens conn log log')
    (hticket : conn.ticket = next) : Accounted log' (next + 1) (conn :: conns) := by
  obtain ⟨x, hx, hx', hq⟩ := ho
  -- no ticket so high was used before
  have hnew : conn ∉ openedIn log := by
    intro hmem
    have := h.below conn hmem
    omega
  suffices hx : Accounted (log ++ [x]) (next + 1) (conn :: conns) from hx.quiet hq
  have hopened : openedIn (log ++ [x]) = openedIn log ++ [conn] := by
    rw [openedIn_append, openedIn, openedIn, List.filterMap_cons_some hx, List.filterMap_nil]
  have hclosed : closedIn (log ++ [x]) = closedIn log := by
    rw [closedIn_append, closedIn, closedIn, List.filterMap_cons_none hx', List.filterMap_nil,
      List.append_nil]
  constructor
  case opened =>
    rw [hopened]
    refine List.nodup_append.2 ⟨h.opened, List.pairwise_singleton _ _, ?_⟩
    intro c hc d hd
    rw [List.mem_singleton.1 hd]
    rintro rfl
    exact hnew hc
  case below =>
    rw [hopened]
    intro c hc
    rcases List.mem_append.1 hc with hc | hc
    · have := h.below c hc
      omega
    · rw [List.mem_singleton.1 hc]
      omega
  case nodup =>
    exact List.nodup_cons.2 ⟨fun hmem => hnew ((h.places conn).2 (Or.inl hmem)), h.nodup⟩
  case places =>
    intro c
    rw [hopened, hclosed, List.mem_append, List.mem_singleton, h.places c, List.mem_cons]
    tauto
  case apart =>
    rw [hclosed]
    intro c hc
    rcases List.mem_cons.1 hc with rfl | hc
    · exact fun hmem => hnew ((h.places c).2 (Or.inr hmem))
    · exact h.apart c hc

end Accounted

/-! ## Every event -/

namespace World

variable (D : Drivers σ)

/-- The connections of the wrappers are those that the log accounts for. -/
def Accounts (w : World (Observed σ)) (l : List Wrapper) : Prop :=
  Accounted w.drivers.log w.pool.nextTicket (l.map (·.conn))

theorem accounts_start (source : Source) (config : PoolConfig) (s : σ) :
    Accounts { pool := .new source config, drivers := ⟨s, []⟩ } (Pool.new source config).wrappers :=
  Accounted.empty

/-- An examination is silent if the wrapper is fit, and may close its connection if it is not. -/
theorem isFit_log (w : World (Observed σ)) (c : Wrapper) :
    match w.isFit (D.observed .pool) c with
    | (true, w') => Quiet w.drivers.log w'.drivers.log
    | (false, w') => About c.conn w.drivers.log w'.drivers.log := by
  have hhealthy := D.isHealthy_log w.pool.config w.now c w.drivers
  rcases hfit : w.isFit (D.observed .pool) c with ⟨fit, w'⟩
  rcases isFit_cases _ hfit with ⟨-, e⟩ | ⟨-, rfl, rfl⟩
  · rw [e] at hhealthy
    cases fit <;> exact hhealthy
  · exact Continues.refl _

/-- **The accounts are a ledger.** -/
theorem accounts_ledger : Ledger (D.observed .pool) Accounts where
  perm h hl := Accounted.perm h (hl.map _)
  lists _ _ _ _ h := h
  opened {w _ who _} _ hs h := by
    have hlog := w.pool.source.newConnection_log D who w.nextConn w.drivers
    rw [hs] at hlog
    exact Accounted.enter h hlog rfl
  refused {w _ who _ _} _ hs h := by
    have hlog := w.pool.source.newConnection_log D who w.nextConn w.drivers
    rw [hs] at hlog
    rcases hlog with hquiet | ⟨b, hopens, hcloses⟩
    · exact (Accounted.quiet h hquiet).mono (Nat.le_succ _)
    · exact (Accounted.enter h hopens rfl).close hcloses
  fit {w _ _ c} hfit h := by
    have hlog := isFit_log D w c
    rw [hfit] at hlog
    rw [Accounts, pool_of_isFit _ hfit]
    exact Accounted.quiet h hlog
  unfit {w w' _ c} hfit h := by
    have hlog := isFit_log D w c
    rw [hfit] at hlog
    have hcloses := (D.closes_giveUp c.conn w'.drivers).after hlog
    rw [Accounts, discard_pool, pool_of_isFit _ hfit]
    exact Accounted.close h hcloses
  rolledBack {w _ c} h := Accounted.quiet h (D.quiet_rollbackIfManual c.conn w.drivers)
  reclaimed {w _ c} h := Accounted.quiet h (D.quiet_rollbackIfManual c.conn w.drivers)
  stamped _ h := h
  kept h := h
  closed {w _ c} h := Accounted.close h (D.closes_close c.conn w.drivers)
  discarded {w _ c} h := Accounted.close h (D.closes_giveUp c.conn w.drivers)

/-- **The log always accounts for the connections of the two lists**, whatever happens to the pool. -/
theorem accounts_kept : Kept (D.observed .pool) (D.observed .holder)
    fun w => w.Accounts w.pool.wrappers :=
  (accounts_ledger D).kept_of (fun _ _ _ _ h => h) fun {w _} conn call h =>
    Accounted.quiet h
      (Drivers.says_call D conn call (fun _ _ => Drivers.silent_holder conn call _) w.drivers)

end World

/-! ## The end of a pool -/

namespace Machine

/-- Only `settle` notes that the pool is gone. -/
theorem pass_gone (D : Drivers σ) (m : Machine σ) (key : Key) (a : Acquisition) :
    (m.pass D key a).2.gone = m.gone := by
  rcases m.pass_cases D key a with ⟨-, e⟩ | ⟨-, budget, ⟨h, w, -, e⟩ | ⟨err, w, -, e⟩ |
    ⟨r, w, f, -, e⟩ | ⟨w, -, e⟩⟩
  all_goals rw [e]

theorem lookAt_gone (D : Drivers σ) (m : Machine σ) (key : Key) (deadline : Instant) :
    (m.lookAt D key deadline).2.gone = m.gone := by
  rcases m.lookAt_cases D key deadline with ⟨out, e⟩ | ⟨drain, e⟩
  · rw [e]
    rfl
  · rw [e]

theorem react_gone (D : Drivers σ) (m : Machine σ) (e : Event σ) :
    (m.react D e).2.gone = m.gone := by
  cases e with
  | acquire key who => exact pass_gone D m key _
  | resume key =>
    show (m.resume D key).2.gone = m.gone
    rcases m.resume_cases D key with ⟨o, e, -⟩ | ⟨p, f, -, e⟩
    · rw [e]
    · rw [e, pass_gone]
  | release key =>
    show (m.release D key).gone = m.gone
    rcases m.release_cases D key with ⟨-, e⟩ | ⟨h, -, e⟩
    · rw [e]
    · rw [e]
      rfl
  | use key call =>
    show (m.use D key call).2.gone = m.gone
    rcases m.use_cases D key call with ⟨-, e⟩ | ⟨h, -, -, e⟩ | ⟨h, o, -, -, e, -⟩
    all_goals rw [e]
  | shutDown key => exact lookAt_gone D _ key _
  | look key =>
    show (m.look D key).2.gone = m.gone
    rcases m.look_cases D key with ⟨o, e, -⟩ | ⟨d, -, e⟩
    · rw [e]
    · rw [e, lookAt_gone]
  | abandon key => rfl
  | reconfigure change => rfl
  | setTolerance n => rfl
  | advance d => rfl
  | disturb change => rfl
  | letGo => rfl

theorem unused_iff {m : Machine σ} : m.unused = true ↔
    m.held = false ∧ m.waiters = [] ∧ m.drains = [] ∧ m.handles = [] := by
  simp [unused, and_assoc]

/-- When nobody refers to the pool, nothing happens to its connections any more. -/
theorem react_of_unused (D : Drivers σ) {m : Machine σ} {e : Event σ} (hm : m.unused = true)
    (he : m.admits e = true) : (m.react D e).2.unused = true ∧
      (m.react D e).2.world.pool.wrappers = m.world.pool.wrappers := by
  obtain ⟨hheld, hwaiters, hdrains, hhandles⟩ := unused_iff.1 hm
  cases e with
  | acquire key who => simp [admits, hheld] at he
  | resume key =>
    have hkey : m.waiter? key = none := by simp [waiter?, hwaiters]
    have e : m.resume D key = (.nothing, m) := by simp only [resume, hkey]
    rw [react, e]
    exact ⟨hm, rfl⟩
  | abandon key =>
    refine ⟨unused_iff.2 ⟨hheld, ?_, ?_, hhandles⟩, rfl⟩
    · show without key m.waiters = []
      rw [hwaiters]
      rfl
    · show without key m.drains = []
      rw [hdrains]
      rfl
  | release key =>
    have hkey : m.handle? key = none := by simp [handle?, hhandles]
    have e : m.release D key = m := by simp only [release, hkey]
    rw [react, e]
    exact ⟨hm, rfl⟩
  | use key call =>
    have hkey : m.handle? key = none := by simp [handle?, hhandles]
    have e : m.use D key call = (.nothing, m) := by simp only [use, hkey]
    rw [react, e]
    exact ⟨hm, rfl⟩
  | reconfigure change => simp [admits, hheld] at he
  | setTolerance n => simp [admits, hheld] at he
  | shutDown key => simp [admits, hheld] at he
  | look key =>
    have hkey : m.drain? key = none := by simp [drain?, hdrains]
    have e : m.look D key = (.nothing, m) := by simp only [look, hkey]
    rw [react, e]
    exact ⟨hm, rfl⟩
  | advance d => exact ⟨hm, rfl⟩
  | disturb change => exact ⟨hm, rfl⟩
  | letGo => exact ⟨unused_iff.2 ⟨rfl, hwaiters, hdrains, hhandles⟩, rfl⟩

/-- The pool is gone just when nobody refers to it, and has no connections then. -/
structure Settled (m : Machine σ) : Prop where
  gone : m.gone = m.unused
  empty : m.gone = true → m.world.pool.wrappers = []

theorem settled_start (pool : Pool) (s : σ) : Settled (start pool s) :=
  ⟨rfl, nofun⟩

/-- Settling a machine settles it. -/
theorem settled_settle (P : Drivers σ) {m : Machine σ} (hm : m.gone = false) :
    Settled (m.settle P) := by
  by_cases hu : m.unused = true
  · have e : m.settle P = { m.onWorld (·.invalidateAll P) with gone := true } := by
      simp [settle, hu, hm]
    rw [e]
    refine ⟨hu.symm, fun _ => ?_⟩
    show (m.world.invalidateAll P).pool.wrappers = []
    rw [World.invalidateAll_pool]
    rfl
  · have hu : m.unused = false := by simpa using hu
    have e : m.settle P = m := by simp [settle, hu]
    rw [e]
    exact ⟨hm.trans hu.symm, fun h => absurd (hm.symm.trans h) Bool.false_ne_true⟩

theorem stepAs_settled (P H : Drivers σ) {m : Machine σ} (e : Event σ) (h : Settled m) :
    Settled (m.stepAs P H e).2 := by
  unfold stepAs
  split
  case isFalse => exact h
  case isTrue he =>
    have hgone := react_gone (e.view P H) m e
    cases hm : m.gone with
    | false => exact settled_settle P (hgone.trans hm)
    | true =>
      -- nothing is left to be closed
      obtain ⟨hu, hw⟩ := react_of_unused (e.view P H) (h.gone ▸ hm) he
      have hs : (m.react (e.view P H) e).2.settle P = (m.react (e.view P H) e).2 := by
        simp [settle, hgone, hm]
      show Settled ((m.react (e.view P H) e).2.settle P)
      rw [hs]
      exact ⟨(hgone.trans hm).trans hu.symm, fun _ => hw.trans (h.empty hm)⟩

/-! ## Custody -/

/-- The log of an observed machine. -/
abbrev log (m : Machine (Observed σ)) : List Exchange := m.world.drivers.log

/-- Every connection is in one place, in an observed machine. -/
structure Custody (D : Drivers σ) (m : Machine (Observed σ)) : Prop where
  /-- No connection is opened twice. -/
  opened : (openedIn m.log).Nodup
  /-- A connection that was opened is idle, or out, or was closed by the pool. -/
  place : ∀ conn ∈ openedIn m.log,
    (m.world.pool.idle.map (·.conn)).count conn + (m.world.pool.active.map (·.conn)).count conn +
      (if conn ∈ closedIn m.log then 1 else 0) = 1
  /-- What is idle or out was opened, and was not closed by the pool. -/
  listed : ∀ c ∈ m.world.pool.idle ++ m.world.pool.active,
    c.conn ∈ openedIn m.log ∧ c.conn ∉ closedIn m.log
  /-- What the next event hands out was opened, and was not closed by the pool, then or before. -/
  handsOut : ∀ e h, (m.observe D e).1 = .acquired h →
    h.conn ∈ openedIn (m.observe D e).2.log ∧ h.conn ∉ closedIn (m.observe D e).2.log
  /-- The pool is gone just when nobody refers to it. -/
  gone : m.gone = m.unused
  /-- When the pool is gone it has closed all that it opened. -/
  allClosed : m.gone = true → ∀ conn ∈ openedIn m.log, conn ∈ closedIn m.log

/-- The accounts put every connection in one place. -/
theorem place_of_accounts {m : Machine (Observed σ)}
    (h : m.world.Accounts m.world.pool.wrappers) {conn : Conn} (hconn : conn ∈ openedIn m.log) :
    (m.world.pool.idle.map (·.conn)).count conn + (m.world.pool.active.map (·.conn)).count conn +
      (if conn ∈ closedIn m.log then 1 else 0) = 1 := by
  have hcount : (m.world.pool.wrappers.map (·.conn)).count conn =
      (m.world.pool.idle.map (·.conn)).count conn +
        (m.world.pool.active.map (·.conn)).count conn := by
    rw [Pool.wrappers, List.map_append, List.count_append, Nat.add_comm]
  rw [← hcount]
  by_cases hmem : conn ∈ m.world.pool.wrappers.map (·.conn)
  · rw [List.count_eq_one_of_mem h.nodup hmem, if_neg (h.apart conn hmem)]
  · have hclosed : conn ∈ closedIn m.log := ((h.places conn).1 hconn).resolve_left hmem
    rw [List.count_eq_zero_of_not_mem hmem, if_pos hclosed]

/-- What the pool has was opened and is not closed. -/
theorem listed_of_accounts {m : Machine (Observed σ)}
    (h : m.world.Accounts m.world.pool.wrappers) {c : Wrapper}
    (hc : c ∈ m.world.pool.wrappers) : c.conn ∈ openedIn m.log ∧ c.conn ∉ closedIn m.log := by
  have hmem : c.conn ∈ m.world.pool.wrappers.map (·.conn) := List.mem_map_of_mem hc
  exact ⟨(h.places c.conn).2 (Or.inl hmem), h.apart c.conn hmem⟩

theorem observe_accounts (D : Drivers σ) (m : Machine (Observed σ)) (e : Event σ)
    (h : m.world.Accounts m.world.pool.wrappers) :
    (m.observe D e).2.world.Accounts (m.observe D e).2.world.pool.wrappers :=
  observe_kept (World.accounts_kept D) (fun _ _ hw => hw) m e h

/-- **No leak, and no reuse after a close.**  After every run, whatever the drivers answer, each
    connection that the pool opened is idle, or out, or was closed by the pool; it is in one of these
    places only, and once.  When the pool is gone, all have been closed. -/
theorem custody_of_connections (D : Drivers σ) (source : Source) (config : PoolConfig) (s : σ)
    (es : List (Event σ)) : Custody D (observeAll D source config s es).2 := by
  obtain ⟨haccounts, hsettled⟩ :
      (observeAll D source config s es).2.world.Accounts
        (observeAll D source config s es).2.world.pool.wrappers ∧
      Settled (observeAll D source config s es).2 := by
    refine observeAll_rule D source config s es
      (J := fun _ m => m.world.Accounts m.world.pool.wrappers ∧ Settled m)
      ⟨World.accounts_start source config s, settled_start _ _⟩ ?_
    rintro os m e - ⟨ha, hs⟩
    exact ⟨observe_accounts D m e ha, stepAs_settled _ _ _ hs⟩
  generalize (observeAll D source config s es).2 = m at haccounts hsettled ⊢
  constructor
  case opened => exact haccounts.opened
  case place => exact fun conn hconn => place_of_accounts haccounts hconn
  case listed =>
    intro c hc
    exact listed_of_accounts haccounts (List.perm_append_comm.mem_iff.1 hc)
  case handsOut =>
    intro e h ho
    have hnext := observe_accounts D m e haccounts
    rcases stepAs_hands _ _ m e.observed with ⟨hn, -, -⟩ | ⟨key, h', ho', hout, -⟩
    · rw [show m.stepAs _ _ e.observed = m.observe D e from rfl, ho] at hn
      nomatch hn
    · obtain rfl : h' = h := Outcome.acquired.inj (ho'.symm.trans ho)
      obtain ⟨rest, c, hactive, -, rfl, -⟩ := hout.active
      refine listed_of_accounts hnext (List.mem_append_left _ ?_)
      rw [show (m.observe D e).2.world.pool.active = rest ++ [c] from hactive]
      exact List.mem_append_right _ List.mem_cons_self
  case gone => exact hsettled.gone
  case allClosed =>
    intro hgone conn hconn
    have hplaces := (haccounts.places conn).1 hconn
    rw [hsettled.empty hgone] at hplaces
    exact hplaces.resolve_left List.not_mem_nil

end Machine

end ConnPool
