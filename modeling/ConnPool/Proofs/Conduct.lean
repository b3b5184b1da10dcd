/-
  Which connections an operation of the pool calls, and what it says when it opens one.

  What is done with one connection calls this connection only (`Attends`).  To open a connection the
  pool asks for the url and the properties that its source has at that moment for the caller, under a
  name that was never used, and calls the new connection only (`Source.Dials`).

  A pass can have several connections in hand, one after the other.  `Reaches` says which: those that are
  idle, those that it opens, and the one that is out longest, if it is overdue when the pass begins and
  nothing else can be had.  A pass calls no other connection, leaves everything on the active list that
  it does not reclaim, and hands out one of those that it reaches (`tryOut_conduct`).  That it reclaims
  no second connection is due to the limits: once one is reclaimed there is room to open others.
-/
import ConnPool.Proofs.Exchanges
import ConnPool.Proofs.Limits

namespace ConnPool

variable {σ : Type}

/-! ## Calls on one connection -/

/-- The connection that an exchange is about. -/
def Exchange.conn : Exchange → Conn
  | .connect conn _ _ _ => conn
  | .call _ conn _ _ => conn

/-- A call of the pool on the connection. -/
def Exchange.Addresses (conn : Conn) (x : Exchange) : Prop :=
  ∃ call answer, x = .call .pool conn call answer

theorem Exchange.Addresses.conn_eq {conn : Conn} {x : Exchange} (h : x.Addresses conn) :
    x.conn = conn := by
  obtain ⟨call, answer, rfl⟩ := h
  rfl

/-- The log went on with calls of the pool on one connection. -/
abbrev Attends (conn : Conn) : List Exchange → List Exchange → Prop :=
  Continues fun _ x => x.Addresses conn

/-- A connect as the source makes it for a caller. -/
def Source.Dials (src : Source) (who : Credentials) (conn : Conn) (x : Exchange) : Prop :=
  ∃ answer, x = .connect conn src.config.url (src.config.propertiesFor who) answer

namespace Drivers

variable (D : Drivers σ)

theorem says_addresses (conn : Conn) (call : RawCall) :
    Says (fun _ x => x.Addresses conn) ((D.observed .pool).call conn call) :=
  says_call D conn call fun _ answer => ⟨call, answer, rfl⟩

theorem attends_rollbackIfManual (conn : Conn) (s : Observed σ) :
    Attends conn s.log ((D.observed .pool).rollbackIfManual conn s).2.log :=
  says_rollbackIfManual D conn (fun _ answer => ⟨.autoCommit, answer, rfl⟩)
    (fun _ answer => ⟨.rollback, answer, rfl⟩) s

theorem attends_close (conn : Conn) (s : Observed σ) :
    Attends conn s.log (quietly ((D.observed .pool).call conn .close) s).log :=
  says_addresses D conn .close s

theorem attends_giveUp (conn : Conn) (s : Observed σ) :
    Attends conn s.log ((D.observed .pool).giveUp conn s).log :=
  (attends_rollbackIfManual D conn s).trans (attends_close D conn _)

theorem attends_probe (config : PoolConfig) (conn : Conn) (s : Observed σ) :
    Attends conn s.log ((D.observed .pool).probe config conn s).2.log :=
  says_bind (says_addresses D conn (.execute config.pingQuery))
    (fun _ => attends_rollbackIfManual D conn) s

theorem attends_isHealthy (config : PoolConfig) (now : Instant) (c : Wrapper) (s : Observed σ) :
    Attends c.conn s.log ((D.observed .pool).isHealthy config now c s).2.log := by
  have hasked := says_addresses D c.conn .isClosed s
  rcases (D.observed .pool).isHealthy_cases config now c s with ⟨r, s₁, hr, -, e⟩ | ⟨s₁, hr, -, e⟩ |
    ⟨s₁, s₂, hr, -, hp, e⟩ | ⟨s₁, err, s₂, hr, -, hp, e⟩
  all_goals rw [hr] at hasked; rw [e]
  · exact hasked
  · exact hasked
  · have hprobed := attends_probe D config c.conn s₁
    rw [hp] at hprobed
    exact hasked.trans hprobed
  · have hprobed := attends_probe D config c.conn s₁
    rw [hp] at hprobed
    exact (hasked.trans hprobed).trans (attends_close D c.conn s₂)

end Drivers

theorem SourceConfig.attends_configure (c : SourceConfig) (D : Drivers σ) (conn : Conn)
    (s : Observed σ) : Attends conn s.log (c.configure (D.observed .pool) conn s).2.log :=
  c.says_configure D conn (fun call _ _ answer => ⟨call, answer, rfl⟩) s

/-- To open a connection is to ask for it as the source does for the caller, and to call it. -/
theorem Source.newConnection_says (D : Drivers σ) (src : Source) (who : Credentials) (conn : Conn)
    (s : Observed σ) : Continues (fun _ x => src.Dials who conn x ∨ x.Addresses conn) s.log
      (src.newConnection (D.observed .pool) who conn s).2.log := by
  unfold Source.newConnection
  rcases hc : (D.observed .pool).connect conn src.config.url (src.config.propertiesFor who) s with
    ⟨r, s₁⟩
  have hlog : Continues (fun _ x => src.Dials who conn x ∨ x.Addresses conn) s.log s₁.log := by
    obtain ⟨rfl, rfl⟩ := Prod.mk.inj hc
    exact Continues.one (Or.inl ⟨_, rfl⟩)
  rcases r with e | u
  · exact hlog
  · have hconfigured := src.config.attends_configure D conn s₁
    rcases hf : src.config.configure (D.observed .pool) conn s₁ with ⟨r, s₂⟩
    rw [hf] at hconfigured
    rcases r with e | u
    · simp only [hf]
      exact hlog.trans ((hconfigured.trans (D.attends_close conn s₂)).mono fun _ _ => Or.inr)
    · simp only [hf]
      exact hlog.trans (hconfigured.mono fun _ _ => Or.inr)

/-! ## Operations of the pool -/

namespace World

variable (D : Drivers σ)

theorem isFit_attends {w w' : World (Observed σ)} {c : Wrapper} {fit : Bool}
    (h : w.isFit (D.observed .pool) c = (fit, w')) :
    Attends c.conn w.drivers.log w'.drivers.log := by
  have hexamined := D.attends_isHealthy w.pool.config w.now c w.drivers
  rcases isFit_cases _ h with ⟨-, e⟩ | ⟨-, -, rfl⟩
  · rw [e] at hexamined
    exact hexamined
  · exact Continues.refl _

theorem isGood_attends {w w' : World (Observed σ)} {c : Wrapper} {good : Bool}
    (h : w.isGood (D.observed .pool) c = (good, w')) :
    Attends c.conn w.drivers.log w'.drivers.log := by
  rcases isGood_cases _ h with ⟨-, hfit⟩ | ⟨w₁, r, hfit, hr, -⟩
  · exact isFit_attends D hfit
  · obtain rfl := congrArg Prod.snd hr
    exact (isFit_attends D hfit).trans (D.attends_rollbackIfManual c.conn w₁.drivers)

theorem takeBack_attends (w : World (Observed σ)) (c : Wrapper) :
    Attends c.conn w.drivers.log (w.takeBack (D.observed .pool) c).drivers.log := by
  rcases w.takeBack_cases (D.observed .pool) c with ⟨w₁, hfit, e⟩ | ⟨w₁, w₂, hfit, hr, -, e⟩ |
    ⟨w₁, r, w₂, hfit, hr, -, e⟩
  · rw [e]
    exact (isFit_attends D hfit).trans (D.attends_giveUp c.conn w₁.drivers)
  · have hrolled := D.attends_rollbackIfManual c.conn (w₁.countedBack c).drivers
    obtain rfl := congrArg Prod.snd hr
    rw [e]
    exact (isFit_attends D hfit).trans hrolled
  · have hrolled := D.attends_rollbackIfManual c.conn (w₁.countedBack c).drivers
    obtain rfl := congrArg Prod.snd hr
    rw [e]
    exact ((isFit_attends D hfit).trans hrolled).trans (D.attends_close c.conn _)

/-- A handle that is returned has its own connection called, if its wrapper is out. -/
theorem checkIn_says (w : World (Observed σ)) (id : Nat) :
    Continues (fun _ x => ∃ c ∈ w.pool.active, c.id = id ∧ x.Addresses c.conn) w.drivers.log
      (w.checkIn (D.observed .pool) id).drivers.log := by
  rcases w.checkIn_cases (D.observed .pool) id with ⟨-, e⟩ | ⟨c, front, back, ha, hid, -, e⟩
  · rw [e]
    exact Continues.refl _
  · have hc : c ∈ w.pool.active := by
      rw [ha]
      exact List.mem_append_right _ List.mem_cons_self
    rw [e]
    exact (takeBack_attends D (w.onPool fun p => { p with active := front ++ back }) c).mono
      fun _ x hx => ⟨c, hc, hid, hx⟩

theorem foldl_discard_says : ∀ (l : List Wrapper) (w : World (Observed σ)),
    Continues (fun _ x => ∃ c ∈ l, x.Addresses c.conn) w.drivers.log
      (l.foldl (discard (D.observed .pool)) w).drivers.log
  | [], w => Continues.refl _
  | c :: l, w => by
    have hfirst := D.attends_giveUp c.conn w.drivers
    have hrest := foldl_discard_says l (w.discard (D.observed .pool) c)
    exact (hfirst.mono fun _ x hx => ⟨c, List.mem_cons_self, hx⟩).trans
      (hrest.mono fun _ x ⟨c', hc', hx⟩ => ⟨c', List.mem_cons_of_mem c hc', hx⟩)

theorem invalidateAll_says (w : World (Observed σ)) :
    Continues (fun _ x => ∃ c ∈ w.pool.active ++ w.pool.idle, x.Addresses c.conn) w.drivers.log
      (w.invalidateAll (D.observed .pool)).drivers.log :=
  foldl_discard_says D (w.pool.active ++ w.pool.idle)
    (w.onPool fun p => { p with active := [], idle := [], expected := p.source.identity })

/-! ## A pass -/

/-- A search on the world reclaims what the wrapper is around: nothing is idle, no more may be out, and
    the wrapper has been out for longest, and for too long. -/
structure Reclaims (w : World σ) (c : Wrapper) : Prop where
  idle : w.pool.idle = []
  full : w.pool.config.maxActive ≤ w.pool.active.length
  oldest : w.pool.active.head? = some c
  overdue : w.pool.config.maxCheckoutTime < w.now - c.checkoutAt

/-- A connection that a pass on the world may have in hand: one that is idle, a new one, or the one that
    it reclaims. -/
def Reaches (w : World σ) (conn : Conn) : Prop :=
  (∃ c ∈ w.pool.idle, c.conn = conn) ∨
  (conn.driver = w.pool.source.driver ∧ w.pool.nextTicket ≤ conn.ticket) ∨
  (∃ c, w.Reclaims c ∧ c.conn = conn)

/-- What a pass may say to the drivers. -/
def Utters (w : World σ) (who : Credentials) (x : Exchange) : Prop :=
  (∃ conn, w.Reaches conn ∧ x.Addresses conn) ∨
  (∃ ticket, w.pool.nextTicket ≤ ticket ∧
    w.pool.source.Dials who ⟨w.pool.source.driver, ticket⟩ x)

/-- How far a pass on `w` has come in `w₁`, with nothing in hand. -/
structure Underway (w : World (Observed σ)) (who : Credentials) (w₁ : World (Observed σ)) :
    Prop where
  fits : w₁.pool.Fits
  now : w₁.now = w.now
  pruned : w.pool.Pruned w₁.pool
  nextTicket : w.pool.nextTicket ≤ w₁.pool.nextTicket
  /-- When something was reclaimed there is room to open others. -/
  room : w₁.pool.active = w.pool.active ∨ w₁.pool.active.length < w₁.pool.config.maxActive
  keeps : ∀ c ∈ w.pool.active, ¬ w.Reclaims c → c ∈ w₁.pool.active
  log : Continues (fun _ x => w.Utters who x) w.drivers.log w₁.drivers.log

/-- How a pass on `w` has found something, in `w₁`. -/
structure InHand (w : World (Observed σ)) (who : Credentials) (c : Wrapper)
    (w₁ : World (Observed σ)) : Prop extends Underway w who w₁ where
  reaches : w.Reaches c.conn
  space : w₁.pool.active.length < w₁.pool.config.maxActive

variable {D} {w w₁ w₂ : World (Observed σ)} {who : Credentials} {c : Wrapper}

theorem Underway.refl (h : w.pool.Fits) : Underway w who w :=
  ⟨h, rfl, Pool.Pruned.refl _, Nat.le_refl _, Or.inl rfl, fun _ hc _ => hc, Continues.refl _⟩

/-- What is reclaimed while a pass is under way would have been reclaimed when it began. -/
theorem Underway.reclaims (h : Underway w who w₁) (hw : w.pool.Fits) (hc : w₁.Reclaims c) :
    w.Reclaims c := by
  have hfull := hc.full
  have hsame : w₁.pool.active = w.pool.active := by
    rcases h.room with hsame | hroom
    · exact hsame
    · omega
  have htotal := hw.total
  rw [hsame, h.pruned.config] at hfull
  refine ⟨?_, hfull, hsame ▸ hc.oldest, ?_⟩
  · exact List.eq_nil_of_length_eq_zero (by omega)
  · have hoverdue := hc.overdue
    rw [h.pruned.config, h.now] at hoverdue
    exact hoverdue

/-- A search that finds something takes it in hand. -/
theorem Underway.found (h : Underway w who w₁) (hw : w.pool.Fits)
    (ht : w₁.takeCandidate (D.observed .pool) who = (.found c, w₂)) : InHand w who c w₂ := by
  obtain ⟨hfits, hspace⟩ := takeCandidate_fits (D.observed .pool) ht h.fits
  have hpruned := h.pruned.trans (takeCandidate_found_pruned (D.observed .pool) ht).1
  have hroom : w₂.pool.active.length < w₂.pool.config.maxActive := by omega
  rcases takeCandidate_found (D.observed .pool) ht with ⟨rest, hi, rfl⟩ |
    ⟨hi, hlt, rfl, s, hs, rfl⟩ | ⟨hi, oldest, rest, ha, hle, hover, rfl, rfl⟩
  · -- from the idle list
    have hidle : c ∈ w.pool.idle := by
      refine h.pruned.idle.subset ?_
      rw [hi]
      exact List.mem_cons_self
    exact ⟨⟨hfits, h.now, hpruned, h.nextTicket, h.room, h.keeps, h.log⟩,
      Or.inl ⟨c, hidle, rfl⟩, hroom⟩
  · -- opened
    have hnew : w.Reaches w₁.nextConn :=
      Or.inr (Or.inl ⟨congrArg Source.driver h.pruned.source, h.nextTicket⟩)
    have hopens := w₁.pool.source.newConnection_says D who w₁.nextConn w₁.drivers
    rw [hs] at hopens
    refine ⟨⟨hfits, h.now, hpruned, Nat.le_succ_of_le h.nextTicket, h.room, h.keeps,
      h.log.trans (hopens.mono fun _ x hx => ?_)⟩, hnew, hroom⟩
    rcases hx with hdials | haddresses
    · refine Or.inr ⟨w₁.pool.nextTicket, h.nextTicket, ?_⟩
      rw [← h.pruned.source]
      exact hdials
    · exact Or.inl ⟨_, hnew, haddresses⟩
  · -- reclaimed
    have hreclaims : w.Reclaims oldest :=
      h.reclaims hw ⟨hi, hle, by rw [ha]; rfl, hover⟩
    have hreaches : w.Reaches oldest.conn := Or.inr (Or.inr ⟨oldest, hreclaims, rfl⟩)
    have hrolled := D.attends_rollbackIfManual oldest.conn w₁.drivers
    refine ⟨⟨hfits, h.now, hpruned, h.nextTicket, Or.inr hroom, fun c hc hnot => ?_,
      h.log.trans (hrolled.mono fun _ x hx => Or.inl ⟨_, hreaches, hx⟩)⟩, hreaches, hroom⟩
    have hmem := h.keeps c hc hnot
    rw [ha] at hmem
    rcases List.mem_cons.1 hmem with rfl | hrest
    · exact absurd hreclaims hnot
    · exact hrest

theorem Underway.failed {e : PoolError} (h : Underway w who w₁)
    (ht : w₁.takeCandidate (D.observed .pool) who = (.failed e, w₂)) : Underway w who w₂ := by
  have hfits := takeCandidate_failed_fits (D.observed .pool) ht h.fits
  have hpruned := h.pruned.trans (takeCandidate_failed_pruned (D.observed .pool) ht)
  rcases takeCandidate_failed (D.observed .pool) ht with ⟨hi, hlt, cause, s, hs, rfl, rfl⟩ |
    ⟨hi, ha, hz, -, rfl⟩
  · have hnew : w.Reaches w₁.nextConn :=
      Or.inr (Or.inl ⟨congrArg Source.driver h.pruned.source, h.nextTicket⟩)
    have hopens := w₁.pool.source.newConnection_says D who w₁.nextConn w₁.drivers
    rw [hs] at hopens
    refine ⟨hfits, h.now, hpruned, Nat.le_succ_of_le h.nextTicket, h.room, h.keeps,
      h.log.trans (hopens.mono fun _ x hx => ?_)⟩
    rcases hx with hdials | haddresses
    · refine Or.inr ⟨w₁.pool.nextTicket, h.nextTicket, ?_⟩
      rw [← h.pruned.source]
      exact hdials
    · exact Or.inl ⟨_, hnew, haddresses⟩
  · exact h

/-- Trying out what is in hand calls nothing else. -/
theorem InHand.tried {good : Bool} (h : InHand w who c w₁)
    (hg : w₁.isGood (D.observed .pool) c = (good, w₂)) : InHand w who c w₂ := by
  have hpool := pool_of_isGood _ hg
  have hlog := (isGood_attends D hg).mono fun _ x hx =>
    (Or.inl ⟨c.conn, h.reaches, hx⟩ : w.Utters who x)
  refine ⟨⟨?_, (now_of_isGood _ hg).trans h.now, ?_, ?_, ?_, ?_, h.log.trans hlog⟩, h.reaches, ?_⟩
  all_goals rw [hpool]
  · exact h.fits
  · exact h.pruned
  · exact h.nextTicket
  · exact h.room
  · exact h.keeps
  · exact h.space

theorem InHand.rejected (h : InHand w who c w₁) :
    Underway w who (w₁.reject (D.observed .pool) c) where
  fits := ⟨h.fits.idle, h.fits.total⟩
  now := h.now
  pruned := h.pruned.trans (Pool.pruned_invalidate_count ..)
  nextTicket := h.nextTicket
  room := h.room
  keeps := h.keeps
  log := h.log.trans ((D.attends_giveUp c.conn w₁.drivers).mono fun _ _ hx =>
    Or.inl ⟨c.conn, h.reaches, hx⟩)

/-- What a pass on `w` for a caller comes to. -/
structure Conduct (w : World (Observed σ)) (who : Credentials) (r : PassEnd)
    (w' : World (Observed σ)) : Prop where
  now : w'.now = w.now
  log : Continues (fun _ x => w.Utters who x) w.drivers.log w'.drivers.log
  keeps : ∀ c ∈ w.pool.active, ¬ w.Reclaims c → c ∈ w'.pool.active
  handsOut : ∀ h, r = .handedOut h → w.Reaches h.conn ∧
    ∃ c rest, w'.pool.active = rest ++ [c] ∧ rest <:+ w.pool.active ∧ c.handle = h ∧
      c.identity = ⟨w.pool.source.config.url, who⟩

theorem Underway.conduct (h : Underway w who w₁) {r : PassEnd} (hr : ∀ h, r ≠ .handedOut h) :
    Conduct w who r w₁ :=
  ⟨h.now, h.log, h.keeps, fun hd e => absurd e (hr hd)⟩

variable (D) (w) (who)

/-- **The conduct of a pass.** -/
theorem tryOut_conduct (hw : w.pool.Fits) (startedAt : Instant) (budget r : Nat) :
    Conduct w who (w.tryOut (D.observed .pool) who startedAt budget r).1
      (w.tryOut (D.observed .pool) who startedAt budget r).2 := by
  refine tryOut_rule (D.observed .pool) (I := fun _ w₁ => Underway w who w₁) (Q := Conduct w who)
    ?_ ?_ ?_ ?_ ?_ ?_ budget r w (Underway.refl hw)
  · intro r w₁ e w' h ht
    exact (h.failed ht).conduct nofun
  · intro r w₁ w' h ht
    rw [(takeCandidate_mustWait (D.observed .pool) ht).1]
    exact h.conduct nofun
  · intro r w₁ c w₂ w₃ h ht hg
    have hand := (h.found hw ht).tried hg
    refine ⟨hand.now, hand.log, fun c' hc' hnot => ?_, fun hd e => ?_⟩
    · exact List.mem_append_left _ (hand.keeps c' hc' hnot)
    · obtain rfl := PassEnd.handedOut.inj e
      refine ⟨hand.reaches, w₃.stamped who c, w₃.pool.active, rfl, hand.pruned.active, rfl, ?_⟩
      show (⟨w₃.pool.source.config.url, who⟩ : Identity) = _
      rw [hand.pruned.source]
  · intro r w₁ c w₂ w₃ h ht hg
    exact ((h.found hw ht).tried hg).rejected
  · intro r w₁ h
    exact h.conduct nofun
  · intro r w₁ h
    exact h.conduct nofun

variable {D} {w} {who}

/-- What is counted does not matter to a pass. -/
theorem Conduct.of_count {f : Counters → Counters} {r : PassEnd} {w' : World (Observed σ)}
    (h : Conduct (w.onPool (·.count f)) who r w') : Conduct w who r w' := by
  have hreclaims : ∀ c, (w.onPool (·.count f)).Reclaims c ↔ w.Reclaims c := fun c =>
    ⟨fun h => ⟨h.idle, h.full, h.oldest, h.overdue⟩, fun h => ⟨h.idle, h.full, h.oldest, h.overdue⟩⟩
  have hreaches : ∀ conn, (w.onPool (·.count f)).Reaches conn → w.Reaches conn := fun conn =>
    Or.imp_right (Or.imp_right fun ⟨c, hc, he⟩ => ⟨c, (hreclaims c).1 hc, he⟩)
  refine ⟨h.now, h.log.mono fun _ x => Or.imp_left fun ⟨conn, hc, hx⟩ => ⟨conn, hreaches conn hc, hx⟩,
    fun c hc hnot => h.keeps c hc fun hr => hnot ((hreclaims c).1 hr), fun hd e => ?_⟩
  obtain ⟨hreach, hactive⟩ := h.handsOut hd e
  exact ⟨hreaches _ hreach, hactive⟩

/-- The conduct of a pass in which something was counted first. -/
theorem conduct_of_pass (hw : w.pool.Fits) {f : Counters → Counters} {startedAt : Instant}
    {budget rejected : Nat} {r : PassEnd} {w' : World (Observed σ)}
    (hpass : (w.onPool (·.count f)).tryOut (D.observed .pool) who startedAt budget rejected =
      (r, w')) : Conduct w who r w' := by
  have hconduct := (w.onPool (·.count f)).tryOut_conduct D who ⟨hw.idle, hw.total⟩ startedAt budget
    rejected
  rw [hpass] at hconduct
  exact hconduct.of_count

end World

end ConnPool
