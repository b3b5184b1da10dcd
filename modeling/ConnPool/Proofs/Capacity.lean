/-
  A pool never has more connections than it may.

  Its lists are within the limits (`Limits`), and so is what a driver sees of it: right after every
  connect that succeeds, no more than `maxActive` connections are open that the pool opened.  The
  connections in hand count there, and so does one that cannot be configured and is closed at once.

  A connect happens only while fewer than `maxActive` wrappers are there at all, and the accounts say
  that every connection that is open has a wrapper.
-/
import ConnPool.Proofs.Custody
import ConnPool.Proofs.Limits

namespace ConnPool

variable {σ : Type}

/-! ## Connections that are open -/

/-- The connections that the pool opened and has not called close on. -/
def openIn (log : List Exchange) : List Conn :=
  (openedIn log).filter fun conn => conn ∉ closedIn log

/-- As many connections are open as are accounted for. -/
theorem Accounted.length_openIn {log : List Exchange} {next : Nat} {conns : List Conn}
    (h : Accounted log next conns) : (openIn log).length = conns.length := by
  refine List.Perm.length_eq ?_
  rw [openIn, List.perm_ext_iff_of_nodup (h.opened.filter _) h.nodup]
  intro conn
  rw [List.mem_filter, decide_eq_true_eq, h.places conn]
  constructor
  · rintro ⟨hconn | hclosed, hopen⟩
    · exact hconn
    · exact absurd hclosed hopen
  · intro hconn
    exact ⟨Or.inl hconn, h.apart conn hconn⟩

/-- After the exchange no more than `max` connections are open, if it opened one. -/
def Within (max : Nat) (log : List Exchange) (x : Exchange) : Prop :=
  ∀ conn, x.opened? = some conn → (openIn (log ++ [x])).length ≤ max

/-- What only concerns a connection that is there opens none. -/
theorem About.within {conn : Conn} {a b : List Exchange} (h : About conn a b) (max : Nat) :
    Continues (Within max) a b :=
  h.mono fun _ _ hx _ hopened => nomatch hx.1.symm.trans hopened

theorem Quiet.within {a b : List Exchange} (h : Quiet a b) (max : Nat) :
    Continues (Within max) a b :=
  h.mono fun _ _ hx _ hopened => nomatch hx.1.symm.trans hopened

/-- A connection may be opened while fewer than `max` are accounted for. -/
theorem Accounted.within {log log' : List Exchange} {next max : Nat} {conn : Conn}
    {conns : List Conn} (h : Accounted log next conns) (ho : Opens conn log log')
    (hticket : conn.ticket = next) (hroom : conns.length < max) :
    Continues (Within max) log log' := by
  obtain ⟨x, hx, hx', hq⟩ := ho
  have hafter : Accounted (log ++ [x]) (next + 1) (conn :: conns) :=
    h.enter ⟨x, hx, hx', Continues.refl _⟩ hticket
  have hwithin : Within max log x := by
    intro _ _
    rw [hafter.length_openIn, List.length_cons]
    exact hroom
  exact (Continues.one hwithin).trans (hq.within max)

/-! ## Every event -/

namespace World

/-- The accounts are right, and since the log was `base` a connection was opened only within the
    limit. -/
structure Bounded (base : List Exchange) (max : Nat) (w : World (Observed σ)) (l : List Wrapper) :
    Prop where
  accounts : w.Accounts l
  limit : w.pool.config.maxActive = max
  log : Continues (Within max) base w.drivers.log

variable (D : Drivers σ) (base : List Exchange) (max : Nat)

/-- **To be within the limit is a ledger**: a connection is opened only while there is room for it. -/
theorem bounded_ledger : Ledger (D.observed .pool) (Bounded base max) where
  perm h hl := ⟨(accounts_ledger D).perm h.accounts hl, h.limit, h.log⟩
  lists active idle counters expected h :=
    ⟨(accounts_ledger D).lists active idle counters expected h.accounts, h.limit, h.log⟩
  opened {w _ who _} hroom hs h := by
    refine ⟨(accounts_ledger D).opened hroom hs h.accounts, h.limit, ?_⟩
    have hlog := w.pool.source.newConnection_log D who w.nextConn w.drivers
    rw [hs] at hlog
    rw [h.limit, ← List.length_map (fun c : Wrapper => c.conn)] at hroom
    exact h.log.trans (Accounted.within h.accounts hlog rfl hroom)
  refused {w _ who _ _} hroom hs h := by
    refine ⟨(accounts_ledger D).refused hroom hs h.accounts, h.limit, ?_⟩
    have hlog := w.pool.source.newConnection_log D who w.nextConn w.drivers
    rw [hs] at hlog
    rcases hlog with hquiet | ⟨b, hopens, hcloses⟩
    · exact h.log.trans (hquiet.within max)
    · rw [h.limit, ← List.length_map (fun c : Wrapper => c.conn)] at hroom
      exact (h.log.trans (Accounted.within h.accounts hopens rfl hroom)).trans
        (hcloses.about.within max)
  fit {w w' _ c} hfit h := by
    refine ⟨(accounts_ledger D).fit hfit h.accounts, ?_, ?_⟩
    · rw [pool_of_isFit _ hfit]
      exact h.limit
    · have hlog := isFit_log D w c
      rw [hfit] at hlog
      exact h.log.trans (Quiet.within hlog max)
  unfit {w w' _ c} hfit h := by
    refine ⟨(accounts_ledger D).unfit hfit h.accounts, ?_, ?_⟩
    · rw [discard_pool, pool_of_isFit _ hfit]
      exact h.limit
    · have hlog := isFit_log D w c
      rw [hfit] at hlog
      exact h.log.trans (((D.closes_giveUp c.conn w'.drivers).after hlog).about.within max)
  rolledBack {w _ c} h := ⟨(accounts_ledger D).rolledBack h.accounts, h.limit,
    h.log.trans ((D.quiet_rollbackIfManual c.conn w.drivers).within max)⟩
  reclaimed {w _ c} h := ⟨(accounts_ledger D).reclaimed h.accounts, h.limit,
    h.log.trans ((D.quiet_rollbackIfManual c.conn w.drivers).within max)⟩
  stamped who h := ⟨(accounts_ledger D).stamped who h.accounts, h.limit, h.log⟩
  kept h := ⟨(accounts_ledger D).kept h.accounts, h.limit, h.log⟩
  closed {w _ c} h := ⟨(accounts_ledger D).closed h.accounts, h.limit,
    h.log.trans ((D.closes_close c.conn w.drivers).about.within max)⟩
  discarded {w _ c} h := ⟨(accounts_ledger D).discarded h.accounts, h.limit,
    h.log.trans ((D.closes_giveUp c.conn w.drivers).about.within max)⟩

theorem bounded_keptBetween : KeptBetween (D.observed .pool) (D.observed .holder)
    fun w => Bounded base max w w.pool.wrappers := by
  refine (bounded_ledger D base max).keptBetween_of (fun _ _ _ _ hlimit h => ?_)
    fun {w _} conn call h => ?_
  · exact ⟨h.accounts, hlimit.trans h.limit, h.log⟩
  · have hquiet : Quiet w.drivers.log ((D.observed .holder).call conn call w.drivers).2.log :=
      Drivers.says_call D conn call (fun _ _ => Drivers.silent_holder conn call _) w.drivers
    exact ⟨Accounted.quiet h.accounts hquiet, h.limit, h.log.trans (hquiet.within max)⟩

end World

namespace Machine

/-- An event opens connections within the limit only. -/
theorem observe_within (D : Drivers σ) (m : Machine (Observed σ)) (e : Event σ)
    (h : m.world.Accounts m.world.pool.wrappers) :
    Continues (Within (m.observe D e).2.world.pool.config.maxActive) m.log
      (m.observe D e).2.log := by
  by_cases hre : ∃ change, e = .reconfigure change
  · obtain ⟨change, rfl⟩ := hre
    unfold observe stepAs
    split
    · -- the new limit is there before any connection is thrown away
      have hchanged : World.Bounded m.log (m.world.pool.apply change).config.maxActive
          (m.world.onPool (·.apply change)) (m.world.pool.apply change).wrappers := by
        refine ⟨?_, rfl, Continues.refl _⟩
        rw [World.onPool, Pool.apply_eq]
        exact h
      have hafter := settle_kept (World.bounded_keptBetween D m.log _)
        (m.onWorld (·.reconfigure (D.observed .pool) change)).wakeAll
        ((World.bounded_ledger D m.log _).rounds.invalidateAll hchanged)
      have hlog := hafter.log
      rw [← hafter.limit] at hlog
      exact hlog
    · exact Continues.refl _
  · have hstart : World.Bounded m.log m.world.pool.config.maxActive m.world
        m.world.pool.wrappers := ⟨h, rfl, Continues.refl _⟩
    have hafter := observe_keptBetween (World.bounded_keptBetween D m.log _)
      (fun _ _ hw => ⟨hw.accounts, hw.limit, hw.log⟩) m e
      (fun change he => absurd ⟨change, he⟩ hre) hstart
    rw [hafter.limit]
    exact hafter.log

/-- The pool has no more connections than it may, in an observed machine. -/
structure WithinCapacity (D : Drivers σ) (m : Machine (Observed σ)) : Prop where
  /-- No more than `maxIdle` are idle. -/
  idle : m.world.pool.idle.length ≤ m.world.pool.config.maxIdle
  /-- No more than `maxActive` are idle or out. -/
  total : m.world.pool.active.length + m.world.pool.idle.length ≤ m.world.pool.config.maxActive
  /-- During the next event, right after every connect that succeeds, no more than `maxActive` are open
      that the pool opened.  Only a change of the configuration changes the limit, and it opens nothing. -/
  connect : ∀ e past x, m.log <+: past → past ++ [x] <+: (m.observe D e).2.log →
    x.opened?.isSome = true →
    (openIn (past ++ [x])).length ≤ (m.observe D e).2.world.pool.config.maxActive

/-- **Capacity.**  After every run, whatever the drivers answer, the lists are within the limits that
    are configured, and so are the connections that are open whenever one is opened. -/
theorem within_capacity (D : Drivers σ) (source : Source) (config : PoolConfig) (s : σ)
    (es : List (Event σ)) : WithinCapacity D (observeAll D source config s es).2 := by
  obtain ⟨hfits, haccounts⟩ :
      (observeAll D source config s es).2.world.pool.Fits ∧
      (observeAll D source config s es).2.world.Accounts
        (observeAll D source config s es).2.world.pool.wrappers := by
    refine observeAll_rule D source config s es
      (J := fun _ m => m.world.pool.Fits ∧ m.world.Accounts m.world.pool.wrappers)
      ⟨Pool.fits_new source config, World.accounts_start source config s⟩ ?_
    rintro os m e - ⟨hf, ha⟩
    exact ⟨observe_kept (World.fits_kept _ _) (fun _ _ hw => hw) m e hf, observe_accounts D m e ha⟩
  generalize (observeAll D source config s es).2 = m at hfits haccounts ⊢
  refine ⟨hfits.idle, hfits.total, fun e past x hpast hx hopened => ?_⟩
  obtain ⟨conn, hconn⟩ := Option.isSome_iff_exists.1 hopened
  exact (observe_within D m e haccounts).allows hpast hx conn hconn

end Machine

end ConnPool
