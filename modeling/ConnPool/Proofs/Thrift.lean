/-
  No connection is wasted.

  A pool that may keep as many connections as may be out has no reason to close one, as long as nothing
  goes wrong with them.  So over a run in which no call of the pool fails, nobody changes the
  configuration or shuts the pool down, and nobody brings credentials of its own, the pool closes
  nothing until it is dropped; every valid handle that comes back leaves its connection on the idle list;
  and the pool asks for no more connections than may be out at one time.

  When a connection comes back, the pool asks whether the idle list has room and whether the connection
  was handed out for the identity that is expected.  There is room since the two lists together are never
  longer than `maxActive` (`Pool.Fits`), and the connection was on one of them.  The identity is the
  expected one since every wrapper has it (`identity_of_plain`).  All other ways in which a connection
  can be closed begin with a call that fails, or with the answer that the connection is closed already;
  there is none in a log without flaws (`Flawless`).
-/
import ConnPool.Proofs.Capacity
import ConnPool.Proofs.Opening
import ConnPool.Proofs.Shutdown

namespace ConnPool

variable {σ τ α : Type}

/-! ## Logs without flaws -/

namespace Exchange

/-- It was the pool that spoke to the driver. -/
def byPool : Exchange → Bool
  | .call .holder _ _ _ => false
  | _ => true

/-- The driver failed the pool, or told it that a connection is closed. -/
def flawed : Exchange → Bool
  | .connect _ _ _ (.error _) => true
  | .call .pool _ _ (.error _) => true
  | .call .pool _ .isClosed (.ok (some true)) => true
  | _ => false

theorem flawed_failing {x : Exchange} (h : x.byPool = true) (e : ConnectionError) :
    (x.failing e).flawed = true := by
  cases x with
  | connect _ _ _ _ => rfl
  | call who _ _ _ =>
    cases who with
    | pool => rfl
    | holder => nomatch h

/-- What is not flawed opened a connection, if it was to open one. -/
theorem isSome_opened? {x : Exchange} (h : x.flawed = false) : x.opened?.isSome = x.isConnect := by
  cases x with
  | call who _ _ _ => rfl
  | connect _ _ _ answer =>
    cases answer with
    | ok _ => rfl
    | error _ => nomatch h

end Exchange

/-- No call of the pool failed, and no connection that it asked after was closed. -/
def Flawless (log : List Exchange) : Prop := ∀ x ∈ log, x.flawed = false

instance (log : List Exchange) : Decidable (Flawless log) :=
  inferInstanceAs (Decidable (∀ x ∈ log, x.flawed = false))

namespace Flawless

variable {a b : List Exchange} {x : Exchange}

theorem of_prefix (h : Flawless b) (hab : a <+: b) : Flawless a :=
  fun x hx => h x (hab.subset hx)

theorem right (h : Flawless (a ++ b)) : Flawless b :=
  fun x hx => h x (List.mem_append_right _ hx)

theorem not_of_mem (hx : x.flawed = true) (hmem : x ∈ a) : ¬ Flawless a :=
  fun h => Bool.false_ne_true ((h x hmem).symm.trans hx)

/-- Without flaws a connection was opened whenever the pool asked for one. -/
theorem length_openedIn (h : Flawless a) :
    (openedIn a).length = (a.filter Exchange.isConnect).length := by
  rw [openedIn, List.length_filterMap_eq_countP, ← List.countP_eq_length_filter]
  exact List.countP_congr fun x hx => by rw [Exchange.isSome_opened? (h x hx)]

end Flawless

/-- A plan of the pool is not stopped without a flaw. -/
theorem Stopped.not_flawless {plan said : List Exchange} {e : ConnectionError}
    (h : Stopped plan e said) (hplan : ∀ x ∈ plan, x.byPool = true) : ¬ Flawless said := by
  obtain ⟨done, x, rest, rfl, rfl⟩ := h
  have hx := hplan x (List.mem_append_right _ List.mem_cons_self)
  exact Flawless.not_of_mem (Exchange.flawed_failing hx e) (List.mem_append_right _ List.mem_cons_self)

theorem byPool_undoing (conn : Conn) (automatic : Bool) :
    ∀ x ∈ undoing conn automatic, x.byPool = true := by
  cases automatic with
  | true => exact List.forall_mem_singleton.2 rfl
  | false => exact List.forall_mem_cons.2 ⟨rfl, List.forall_mem_singleton.2 rfl⟩

/-- The log went on, and if it has no flaw then nothing was closed. -/
def Thrifty (a b : List Exchange) : Prop := Flawless b → closedIn b = closedIn a

theorem Quiet.thrifty {a b : List Exchange} (h : Quiet a b) : Thrifty a b := fun _ => h.closedIn_eq

/-- Without flaws a new connection is not closed. -/
theorem Source.thrifty_newConnection (src : Source) (D : Drivers σ) (who : Credentials) (conn : Conn)
    (s : Observed σ) :
    Thrifty s.log (src.newConnection (D.observed .pool) who conn s).2.log := by
  obtain ⟨said, hlog, hcourse⟩ := src.newConnection_course D who conn s
  rw [hlog]
  intro hflawless
  generalize (src.newConnection (D.observed .pool) who conn s).1 = r at hcourse
  replace hflawless := hflawless.right
  cases hcourse with
  | refused e => exact absurd hflawless (Flawless.not_of_mem rfl List.mem_cons_self)
  | opened current =>
    rw [closedIn_append, (Source.Course.opened current).closedIn_of_ok, List.append_nil]
  | givenUp current e said answer stopped =>
    refine absurd (fun x hx => hflawless x ?_) (stopped.not_flawless fun x hx => ?_)
    · exact List.mem_cons_of_mem _ (List.mem_append_left _ hx)
    · obtain ⟨call, answer, rfl, -⟩ := src.config.sets_of_mem_settings conn current x hx
      rfl

/-! ## Flaws that an operation met -/

section Operations

variable {D : Drivers σ}

/-- Uncommitted work cannot be undone for a flaw only. -/
theorem Drivers.ok_of_rollbackIfManual {conn : Conn} {s s' : Observed σ}
    {r : Except ConnectionError Unit}
    (h : (D.observed .pool).rollbackIfManual conn s = (r, s')) (hflawless : Flawless s'.log) :
    r = .ok () := by
  obtain ⟨automatic, hplan⟩ := D.follows_rollbackIfManual conn s
  rw [h] at hplan
  cases r with
  | ok _ => rfl
  | error e =>
    obtain ⟨said, hstopped, hlog⟩ := hplan.log_of_error
    rw [hlog] at hflawless
    exact absurd hflawless.right (hstopped.not_flawless (byPool_undoing conn automatic))

/-- A connection is unhealthy for a flaw only. -/
theorem Drivers.healthy_of_flawless {config : PoolConfig} {now : Instant} {c : Wrapper}
    {s s' : Observed σ} {healthy : Bool}
    (h : (D.observed .pool).isHealthy config now c s = (healthy, s')) (hflawless : Flawless s'.log) :
    healthy = true := by
  rcases (D.observed .pool).isHealthy_cases config now c s with ⟨r, s₁, hr, hr', e⟩ | ⟨s₁, -, -, e⟩ |
    ⟨s₁, s₂, -, -, -, e⟩ | ⟨s₁, err, s₂, hr, -, hp, e⟩
  all_goals obtain ⟨rfl, rfl⟩ := Prod.mk.inj (e.symm.trans h)
  · -- the driver does not say that the connection is open
    have hlog := D.log_of_call .pool c.conn .isClosed s
    rw [hr] at hlog
    refine absurd hflawless (Flawless.not_of_mem ?_ (hlog ▸ List.mem_append_right _ List.mem_cons_self))
    rcases r with err | _ | _
    · rfl
    · exact absurd rfl hr'
    · rfl
  · rfl
  · rfl
  · -- the probe fails
    obtain ⟨automatic, hplan⟩ := D.follows_probe c.conn config s₁
    rw [hp] at hplan
    obtain ⟨said, hstopped, hlog⟩ := hplan.log_of_error
    have hbefore := hflawless.of_prefix (D.attends_close c.conn s₂).isPrefix
    rw [hlog] at hbefore
    refine absurd hbefore.right (hstopped.not_flawless ?_)
    exact List.forall_mem_cons.2 ⟨rfl, byPool_undoing c.conn automatic⟩

namespace World

variable {w w' w₁ w₂ : World (Observed σ)} {c : Wrapper} {who : Credentials}

theorem fit_of_flawless {fit : Bool} (hvalid : c.id ∈ w.pool.valid)
    (h : w.isFit (D.observed .pool) c = (fit, w')) (hflawless : Flawless w'.drivers.log) :
    fit = true := by
  rcases isFit_cases _ h with ⟨-, hhealthy⟩ | ⟨hnot, -⟩
  · exact Drivers.healthy_of_flawless hhealthy hflawless
  · exact absurd hvalid hnot

/-- A candidate is bad for a flaw only. -/
theorem good_of_flawless {good : Bool} (hvalid : c.id ∈ w.pool.valid)
    (h : w.isGood (D.observed .pool) c = (good, w')) (hflawless : Flawless w'.drivers.log) :
    good = true := by
  rcases isGood_cases _ h with ⟨-, hfit⟩ | ⟨w₁, r, -, hr, hgood⟩
  · nomatch fit_of_flawless hvalid hfit hflawless
  · obtain ⟨rfl, rfl⟩ := Prod.mk.inj hr
    exact hgood.2 (Drivers.ok_of_rollbackIfManual rfl hflawless)

theorem isGood_quiet (h : w.isGood (D.observed .pool) c = (true, w')) :
    Quiet w.drivers.log w'.drivers.log := by
  rcases isGood_cases _ h with ⟨hbad, -⟩ | ⟨w₁, r, hfit, hr, -⟩
  · nomatch hbad
  · have hexamined := isFit_log D w c
    rw [hfit] at hexamined
    obtain rfl := congrArg Prod.snd hr
    exact hexamined.trans (D.quiet_rollbackIfManual c.conn w₁.drivers)

/-! ## A pass -/

theorem thrifty_takeCandidate {r : Candidate}
    (ht : w.takeCandidate (D.observed .pool) who = (r, w')) :
    Thrifty w.drivers.log w'.drivers.log := by
  have hopens := w.pool.source.thrifty_newConnection D who w.nextConn w.drivers
  cases r with
  | found c =>
    rcases takeCandidate_found (D.observed .pool) ht with ⟨rest, -, rfl⟩ | ⟨-, -, -, s, hs, rfl⟩ |
      ⟨-, oldest, rest, -, -, -, -, rfl⟩
    · exact fun _ => rfl
    · rw [hs] at hopens
      exact hopens
    · exact (D.quiet_rollbackIfManual oldest.conn w.drivers).thrifty
  | mustWait =>
    rw [(takeCandidate_mustWait (D.observed .pool) ht).1]
    exact fun _ => rfl
  | failed e =>
    rcases takeCandidate_failed (D.observed .pool) ht with ⟨-, -, cause, s, hs, -, rfl⟩ |
      ⟨-, -, -, -, rfl⟩
    · rw [hs] at hopens
      exact hopens
    · exact fun _ => rfl

/-- **A pass closes nothing without a flaw**: the first candidate is handed out. -/
theorem thrifty_tryOut (hroster : w.pool.Roster w.pool.wrappers) (hfits : w.pool.Fits)
    (who : Credentials) (startedAt : Instant) (budget r : Nat) :
    Thrifty w.drivers.log (w.tryOut (D.observed .pool) who startedAt budget r).2.drivers.log := by
  refine tryOut_turn (D.observed .pool) (G := fun end_ => Thrifty w.drivers.log end_.2.drivers.log)
    ?failed ?wait ?good ?bad
  case failed => exact fun e w' ht => thrifty_takeCandidate ht
  case wait => exact fun w' ht => thrifty_takeCandidate ht
  case good =>
    intro c w₁ w₂ ht hg hflawless
    have hquiet := isGood_quiet hg
    exact hquiet.closedIn_eq.trans (thrifty_takeCandidate ht (hflawless.of_prefix hquiet.isPrefix))
  case bad =>
    intro c w₁ w₂ ht hg hflawless
    have hvalid : c.id ∈ w₁.pool.valid :=
      (((roster_ledger (D.observed .pool)).rounds.takeCandidate_found ht hroster).valid c.id).2
        List.mem_cons_self
    have hrejected : Underway w who (w₂.reject (D.observed .pool) c) :=
      (((Underway.refl hfits).found hfits ht).tried hg).rejected
    have hgiven : w₂.drivers.log <+: (w₂.reject (D.observed .pool) c).drivers.log :=
      (D.attends_giveUp c.conn w₂.drivers).isPrefix
    have hbefore : Flawless w₂.drivers.log := by
      split at hflawless
      · cases budget with
        | zero => exact hflawless.of_prefix hgiven
        | succ b =>
          have hconduct := (w₂.reject (D.observed .pool) c).tryOut_conduct D who hrejected.fits startedAt
            b (r + 1)
          exact hflawless.of_prefix (hgiven.trans hconduct.log.isPrefix)
      · exact hflawless.of_prefix hgiven
    nomatch good_of_flawless hvalid hg hbefore

/-- The same of a pass in which something was counted first. -/
theorem thrifty_pass (hroster : w.pool.Roster w.pool.wrappers) (hfits : w.pool.Fits)
    {f : Counters → Counters} {startedAt : Instant} {budget rejected : Nat} {r : PassEnd}
    (hpass : (w.onPool (·.count f)).tryOut (D.observed .pool) who startedAt budget rejected =
      (r, w')) : Thrifty w.drivers.log w'.drivers.log := by
  have hcounted : (w.onPool (·.count f)).pool.Roster (w.onPool (·.count f)).pool.wrappers :=
    hroster.congr rfl rfl rfl (Nat.le_refl _)
  have hthrifty := thrifty_tryOut (D := D) hcounted ⟨hfits.idle, hfits.total⟩ who startedAt budget rejected
  rw [hpass] at hthrifty
  exact hthrifty

/-! ## A return -/

/-- Without flaws, a connection that came back joins the idle list if the pool keeps it. -/
theorem takeBack_of_keeps (hvalid : c.id ∈ w.pool.valid) (hkeeps : w.pool.keeps c = true)
    (hflawless : Flawless (w.takeBack (D.observed .pool) c).drivers.log) :
    closedIn (w.takeBack (D.observed .pool) c).drivers.log = closedIn w.drivers.log ∧
      (w.takeBack (D.observed .pool) c).pool.idle = w.pool.idle ++ [w.pool.rewrapped c w.now] := by
  rcases w.takeBack_cases (D.observed .pool) c with ⟨w₁, hfit, e⟩ | ⟨w₁, w₂, hfit, hr, -, e⟩ |
    ⟨w₁, r, w₂, hfit, hr, hnot, e⟩
  · -- unfit
    rw [e] at hflawless
    have hgiven := (D.attends_giveUp c.conn w₁.drivers).isPrefix
    nomatch fit_of_flawless hvalid hfit (hflawless.of_prefix hgiven)
  · have hexamined := isFit_log D w c
    rw [hfit] at hexamined
    have hrolled := D.quiet_rollbackIfManual c.conn (w₁.countedBack c).drivers
    have hpool := pool_of_countedBack _ hfit hr
    have hnow : w₂.now = w.now := (congrArg (·.2.now) hr.symm).trans (now_of_isFit _ hfit)
    have hlog : w₂.drivers.log = _ := congrArg (·.2.drivers.log) hr.symm
    have hquiet : Quiet w.drivers.log w₂.drivers.log := hlog ▸ hexamined.trans hrolled
    rw [e, keep_drivers, keep_pool, hnow, hpool]
    exact ⟨hquiet.closedIn_eq, rfl⟩
  · -- the rollback succeeded, so the connection was kept
    rw [e] at hflawless
    have hclosed := (D.attends_close c.conn w₂.drivers).isPrefix
    obtain ⟨hr', rfl⟩ := Prod.mk.inj hr
    have hkept := hnot (hr'.symm.trans
      (Drivers.ok_of_rollbackIfManual rfl (hflawless.of_prefix hclosed)))
    rw [pool_of_countedBack _ hfit hr] at hkept
    exact absurd (hkept.symm.trans hkeeps) Bool.false_ne_true

/-- **A return closes nothing without a flaw**, and what was out is idle then. -/
theorem checkIn_of_keeps (hroster : w.pool.Roster w.pool.wrappers)
    (hkeeps : ∀ c ∈ w.pool.active, w.pool.keeps c = true) (id : Nat)
    (hflawless : Flawless (w.checkIn (D.observed .pool) id).drivers.log) :
    closedIn (w.checkIn (D.observed .pool) id).drivers.log = closedIn w.drivers.log ∧
      ∀ c ∈ w.pool.active, c.id = id → (w.checkIn (D.observed .pool) id).pool.idle =
        w.pool.idle ++ [w.pool.rewrapped c w.now] := by
  rcases w.checkIn_cases (D.observed .pool) id with ⟨hnone, e⟩ | ⟨c, front, back, ha, hid, -, e⟩
  · rw [e]
    exact ⟨rfl, fun c hc hid => absurd hid (hnone c hc)⟩
  · have hc : c ∈ w.pool.active := by
      rw [ha]
      exact List.mem_append_right _ List.mem_cons_self
    have hmem : c ∈ w.pool.wrappers := List.mem_append_left _ hc
    rw [e] at hflawless ⊢
    obtain ⟨hclosed, hidle⟩ := takeBack_of_keeps
      (w := w.onPool fun p => { p with active := front ++ back })
      ((hroster.valid c.id).2 (List.mem_map_of_mem hmem)) (hkeeps c hc) hflawless
    refine ⟨hclosed, fun c' hc' hid' => ?_⟩
    have hmem' : c' ∈ w.pool.wrappers := List.mem_append_left _ hc'
    obtain rfl : c' = c := List.inj_on_of_nodup_map hroster.ids hmem' hmem (hid'.trans hid.symm)
    exact hidle

end World

end Operations

/-- A pool whose lists are within its limits has room for what is out, if it may keep as much as may be
    out. -/
theorem Pool.keeps_of_fits {p : Pool} (hfits : p.Fits) (hroom : p.config.maxActive ≤ p.config.maxIdle)
    {c : Wrapper} (hc : c ∈ p.active) (hidentity : c.identity = p.expected) : p.keeps c = true := by
  have hout := List.length_pos_of_mem hc
  have htotal := hfits.total
  rw [Pool.keeps, hidentity, decide_eq_true rfl, Bool.and_true]
  exact decide_eq_true (by omega)

/-! ## What a plain run leaves as it is -/

/-- Nobody changes the configuration or shuts the pool down, and whoever acquires brings no
    credentials. -/
def Event.isPlain : Event τ → Bool
  | .acquire _ (some _) => false
  | .reconfigure _ => false
  | .shutDown _ => false
  | _ => true

/-- No event is anything but plain. -/
def AllPlain (es : List (Event τ)) : Prop := ∀ e ∈ es, e.isPlain = true

instance (es : List (Event τ)) : Decidable (AllPlain es) :=
  inferInstanceAs (Decidable (∀ e ∈ es, e.isPlain = true))

namespace AllPlain

variable {es past : List (Event τ)} {e : Event τ}

theorem of_prefix (h : AllPlain es) (hpast : past <+: es) : AllPlain past :=
  fun e he => h e (hpast.subset he)

theorem before (h : AllPlain (es ++ [e])) : AllPlain es := h.of_prefix (List.prefix_append _ _)

theorem last (h : AllPlain (es ++ [e])) : e.isPlain = true :=
  h e (List.mem_append_right _ List.mem_cons_self)

end AllPlain

/-- The pool has the source and the limits that it was made with, and keeps what was handed out for that
    source. -/
structure World.Steady (src : Source) (config : PoolConfig) (w : World τ) : Prop where
  source : w.pool.source = src
  expected : w.pool.expected = src.identity
  maxActive : w.pool.config.maxActive = config.maxActive
  maxIdle : w.pool.config.maxIdle = config.maxIdle

namespace World

variable {src : Source} {config : PoolConfig} {w w' : World τ}

theorem Steady.sameTerms (h : Steady src config w) (hsame : w.pool.SameTerms w'.pool) :
    Steady src config w' where
  source := hsame.source.trans h.source
  expected := hsame.expected.trans h.expected
  maxActive := by
    rw [hsame.config]
    exact h.maxActive
  maxIdle := by
    rw [hsame.config]
    exact h.maxIdle

/-- **A pool stays steady** as long as the configuration is not changed. -/
theorem steady_kept (P H : Drivers τ) : KeptBetween P H (Steady src config) where
  count _ h := ⟨h.source, h.expected, h.maxActive, h.maxIdle⟩
  tryOut who startedAt budget r h := h.sameTerms (tryOut_sameTerms P who startedAt budget r _)
  checkIn id h := h.sameTerms (checkIn_takesBack P _ id).toSameTerms
  invalidateAll {w} h := by
    have hempty := w.invalidateAll_pool P
    constructor
    all_goals rw [hempty]
    · exact h.source
    · exact congrArg Source.identity h.source
    · exact h.maxActive
    · exact h.maxIdle
  tolerate _ h := ⟨h.source, h.expected, h.maxActive, h.maxIdle⟩
  shut h := ⟨h.source, h.expected, h.maxActive, h.maxIdle⟩
  advance _ h := ⟨h.source, h.expected, h.maxActive, h.maxIdle⟩
  call _ _ h := ⟨h.source, h.expected, h.maxActive, h.maxIdle⟩

end World

namespace Machine

/-! ## What an event does before the pool is dropped -/

section Events

variable (D : Drivers σ) (m : Machine (Observed σ)) (e : Event σ)

/-- The machine after an event, before the pool is dropped in case nobody refers to it any more. -/
def reacts : Machine (Observed σ) :=
  if m.admits e.observed then
    (m.react (e.observed.view (D.observed .pool) (D.observed .holder)) e.observed).2
  else m

/-- An event is one deed, and then the pool is dropped in case nobody refers to it any more. -/
theorem reacts_deed : m.Deed D e (m.observe D e).1 (m.reacts D e) ∧
    ((m.observe D e).2 = m.reacts D e ∨ (m.observe D e).2 =
      { (m.reacts D e).onWorld (·.invalidateAll (D.observed .pool)) with gone := true }) := by
  unfold reacts observe stepAs
  split
  case isFalse => exact ⟨.aside nofun (Alike.refl m), Or.inl rfl⟩
  case isTrue =>
    exact ⟨react_deed D m e, (settle_cases (D.observed .pool) _).imp_right And.right⟩

theorem reacts_gone : (m.reacts D e).gone = m.gone := by
  unfold reacts
  split
  · exact react_gone _ m e.observed
  · rfl

/-- A pool that is not dropped after an event was not dropped before. -/
theorem reacts_of_not_gone (h : (m.observe D e).2.gone = false) :
    m.gone = false ∧ (m.observe D e).2 = m.reacts D e := by
  rcases (reacts_deed D m e).2 with hsame | hdropped
  · rw [hsame, reacts_gone] at h
    exact ⟨h, hsame⟩
  · rw [hdropped] at h
    nomatch h

theorem reacts_isPrefix : (m.reacts D e).log <+: (m.observe D e).2.log := by
  rcases (reacts_deed D m e).2 with hsame | hdropped
  · exact (congrArg log hsame).symm ▸ List.prefix_rfl
  · rw [hdropped]
    exact (World.invalidateAll_says D (m.reacts D e).world).isPrefix

theorem openedIn_reacts : openedIn (m.observe D e).2.log = openedIn (m.reacts D e).log := by
  rcases (reacts_deed D m e).2 with hsame | hdropped
  · rw [hsame]
  · rw [hdropped]
    refine (World.invalidateAll_says D (m.reacts D e).world).openedIn_eq fun _ x hx => ?_
    obtain ⟨c, -, call, answer, rfl⟩ := hx
    rfl

variable {D m e}

/-- A plain event keeps what is kept between changes of the configuration. -/
theorem reacts_kept {I : World (Observed σ) → Prop}
    (hI : World.KeptBetween (D.observed .pool) (D.observed .holder) I)
    (disturb : ∀ w (f : σ → σ), I w → I (w.onDrivers fun s => { s with drivers := f s.drivers }))
    (hplain : e.isPlain = true) (h : I m.world) : I (m.reacts D e).world := by
  unfold reacts
  split
  case isFalse => exact h
  case isTrue =>
    refine react_keptBetween hI m e.observed (fun change he => ?_) (fun change he w hw => ?_) h
    · cases e with
      | reconfigure _ => nomatch hplain
      | _ => nomatch he
    · cases e with
      | disturb f =>
        obtain rfl := Event.disturb.inj he
        exact disturb w f hw
      | _ => nomatch he

/-- A plain event closes nothing without a flaw, while no shutdown waits. -/
theorem thrifty_reacts (hroster : m.world.pool.Roster m.world.pool.wrappers) (hfits : m.world.pool.Fits)
    (hkeeps : ∀ c ∈ m.world.pool.active, m.world.pool.keeps c = true) (hdrains : m.drains = [])
    (hplain : e.isPlain = true) : Thrifty m.log (m.reacts D e).log := by
  have hover : ∀ n, (m.observe D e).1 ≠ .shutDown n := by
    intro n hn
    cases (observe_ends D hn).2.2 with
    | atOnce _ _ => nomatch hplain
    | later drains _ =>
      rw [hdrains] at drains
      nomatch drains
  have hdeed := (reacts_deed D m e).1
  generalize (m.observe D e).1 = o at hdeed hover
  generalize m.reacts D e = m' at hdeed ⊢
  cases hdeed with
  | aside _ alike =>
    rw [alike.log]
    exact fun _ => rfl
  | handsOut _ _ pass => exact World.thrifty_pass hroster hfits pass
  | fails _ _ _ pass _ =>
    have hpass := World.thrifty_pass hroster hfits pass
    exact hpass
  | @release key h handle =>
    exact fun hflawless => (World.checkIn_of_keeps hroster hkeeps h.id hflawless).1
  | @use key call h o handle valid out =>
    have hquiet : Quiet m.log _ :=
      Drivers.says_call D h.conn call (fun _ _ => Drivers.silent_holder h.conn call _) m.world.drivers
    exact hquiet.thrifty
  | reconfigure change => nomatch hplain
  | closesAll alike => exact absurd rfl (hover _)

end Events

/-! ## Every plain run -/

section Runs

variable (D : Drivers σ) (source : Source) (config : PoolConfig) (s : σ)

variable {D source config s} {es : List (Event σ)} {e : Event σ}

theorem steady_of_plain (hplain : AllPlain es) :
    (reached D source config s es).world.Steady source config := by
  refine observeAll_rule D source config s es (J := fun _ m => m.world.Steady source config)
    ⟨rfl, rfl, rfl, rfl⟩ fun _ m e he h => ?_
  refine observe_keptBetween (World.steady_kept _ _) (fun _ _ hw => ?_) m e (fun change he' => ?_) h
  · exact ⟨hw.source, hw.expected, hw.maxActive, hw.maxIdle⟩
  · rw [he'] at he
    nomatch hplain _ he

theorem drains_of_plain (hplain : AllPlain es) : (reached D source config s es).drains = [] := by
  refine observeAll_rule D source config s es (J := fun _ m => m.drains = []) rfl
    fun _ m e he h => ?_
  unfold observe stepAs
  split
  case isFalse => exact h
  case isTrue =>
    rw [settle_drains]
    by_contra hne
    rcases react_drains _ m e.observed hne with hdrains | ⟨key, he'⟩
    · exact hdrains h
    · cases e with
      | shutDown _ => nomatch hplain _ he
      | _ => nomatch he'

/-- Whoever is served in a plain run has the credentials of the source. -/
theorem who_of_plain (hplain : AllPlain (es ++ [e])) {key : Key} {a : Acquisition}
    (h : (reached D source config s es).serves? e = some (key, a)) :
    a.who = source.config.credentials := by
  obtain ⟨who, past, hserves, hwho⟩ := serves_of_serves? h
  obtain ⟨hmem, hpast⟩ : .acquire key who ∈ es ++ [e] ∧ past <+: es := by
    rcases hserves with ⟨rfl, rfl⟩ | ⟨rfl, hbegun⟩
    · exact ⟨List.mem_append_right _ List.mem_cons_self, List.prefix_refl _⟩
    · obtain ⟨rest, rfl, -⟩ := hbegun.waits
      exact ⟨by simp, List.prefix_append _ _⟩
  have hnone : who = none := by
    cases who with
    | none => rfl
    | some _ => nomatch hplain _ hmem
  have hsteady : (reached D source config s past).world.Steady source config :=
    steady_of_plain (hplain.before.of_prefix hpast)
  rw [hwho, hnone, hsteady.source]
  rfl

/-- **Every wrapper has the identity of the source** in a plain run. -/
theorem identity_of_plain (hplain : AllPlain es) :
    ∀ c ∈ (reached D source config s es).world.pool.wrappers, c.identity = source.identity := by
  induction es using List.reverseRecOn with
  | nil => exact nofun
  | append_singleton es e ih =>
    have hidle := fun c hc => ih hplain.before c (List.mem_append_right _ hc)
    have hactive := fun c hc => ih hplain.before c (List.mem_append_left _ hc)
    intro c hc
    rw [reached_concat] at hc
    rcases observe_carries D e (fits_reached D source config s es) with hcarries | hempty
    · rcases List.mem_append.1 hc with hc | hc
      · rcases hcarries.active c hc with hc | ⟨key, a, hserves, -, -, hidentity⟩
        · exact hactive c hc
        · rw [hidentity, who_of_plain hplain hserves, (steady_of_plain hplain.before).source]
          rfl
      · rcases hcarries.idle c hc with hc | ⟨c₀, hc₀, -, hidentity, -⟩
        · exact hidle c hc
        · exact hidentity.trans (hactive c₀ hc₀)
    · rw [hempty.wrappers] at hc
      nomatch hc

/-- The pool keeps all that is out, when it comes back, if it may keep as much as may be out. -/
theorem keeps_of_plain (hroom : config.maxActive ≤ config.maxIdle) (hplain : AllPlain es) :
    ∀ c ∈ (reached D source config s es).world.pool.active,
      (reached D source config s es).world.pool.keeps c = true := by
  intro c hc
  have hsteady : (reached D source config s es).world.Steady source config := steady_of_plain hplain
  refine Pool.keeps_of_fits (fits_reached D source config s es) ?_ hc ?_
  · rw [hsteady.maxActive, hsteady.maxIdle]
    exact hroom
  · rw [hsteady.expected]
    exact identity_of_plain hplain c (List.mem_append_left _ hc)

/-- What an event of a plain run does to the pool before it is dropped closes nothing without a flaw. -/
theorem thrifty_of_plain (hroom : config.maxActive ≤ config.maxIdle) (hplain : AllPlain (es ++ [e])) :
    Thrifty (reached D source config s es).log ((reached D source config s es).reacts D e).log :=
  thrifty_reacts (owned_reached D source config s es).roster (fits_reached D source config s es)
    (keeps_of_plain hroom hplain.before) (drains_of_plain hplain.before) hplain.last

/-- A pool that nobody refers to opens nothing. -/
theorem openedIn_of_unused {m : Machine (Observed σ)} (hm : m.unused = true) (hfits : m.world.pool.Fits)
    (e : Event σ) : openedIn (m.observe D e).2.log = openedIn m.log := by
  obtain ⟨hheld, hwaiters, -, -⟩ := unused_iff.1 hm
  by_cases hadmits : m.admits e.observed = true
  · have hnobody : m.serves? e = none := by
      cases e with
      | acquire key who => simp [Event.observed, admits, hheld] at hadmits
      | resume key => simp [serves?, waiter?, hwaiters]
      | _ => rfl
    refine (observe_mayDial D e hfits).openedIn_eq fun _ x hx => ?_
    cases x with
    | call _ _ _ _ => rfl
    | connect conn url properties answer =>
      obtain ⟨key, a, hserves, -⟩ := hx conn url properties answer rfl
      cases hnobody.symm.trans hserves
  · rw [show m.observe D e = (.nothing, m) from if_neg hadmits]

/-- While nothing is closed, as many connections were opened as the pool has. -/
theorem length_openedIn_of_accounts {w : World (Observed σ)} {l : List Wrapper} (h : w.Accounts l)
    (hclosed : closedIn w.drivers.log = []) : (openedIn w.drivers.log).length = l.length := by
  have hopen := h.length_openIn
  rw [openIn, hclosed, List.length_map] at hopen
  simpa using hopen

/-- While nothing was closed, no more connections were opened than may be out. -/
theorem length_openedIn_of_plain (hplain : AllPlain (es ++ [e]))
    (hclosed : closedIn ((reached D source config s es).reacts D e).log = []) :
    (openedIn ((reached D source config s es).reacts D e).log).length ≤ config.maxActive := by
  have hsteady : ((reached D source config s es).reacts D e).world.Steady source config :=
    reacts_kept (World.steady_kept _ _)
      (fun _ _ hw => ⟨hw.source, hw.expected, hw.maxActive, hw.maxIdle⟩) hplain.last
      (steady_of_plain hplain.before)
  have hfits : ((reached D source config s es).reacts D e).world.pool.Fits :=
    reacts_kept (World.fits_kept _ _).toKeptBetween (fun _ _ hw => hw) hplain.last
      (fits_reached D source config s es)
  have haccounts := reacts_kept (World.accounts_kept D).toKeptBetween (fun _ _ hw => hw) hplain.last
    (accounts_reached D source config s es)
  have htotal := hfits.total
  rw [hsteady.maxActive] at htotal
  rw [length_openedIn_of_accounts haccounts hclosed, Pool.wrappers, List.length_append]
  exact htotal

variable (D source config s)

/-- **Until it is dropped, a pool closes nothing**, and it never opens more than may be out, in a plain
    run without flaws. -/
theorem closes_nothing (hroom : config.maxActive ≤ config.maxIdle) (es : List (Event σ))
    (hplain : AllPlain es) (hflawless : Flawless (reached D source config s es).log) :
    ((reached D source config s es).gone = false →
      closedIn (reached D source config s es).log = []) ∧
    (openedIn (reached D source config s es).log).length ≤ config.maxActive := by
  induction es using List.reverseRecOn with
  | nil => exact ⟨fun _ => rfl, Nat.zero_le _⟩
  | append_singleton es e ih =>
    have hlog := log_isPrefix D source config s (List.prefix_append es [e])
    obtain ⟨hclosed, hopened⟩ := ih hplain.before (hflawless.of_prefix hlog)
    rw [reached_concat] at hflawless ⊢
    have hthrifty : (reached D source config s es).gone = false →
        closedIn ((reached D source config s es).reacts D e).log = [] := by
      intro hthere
      have hsame := thrifty_of_plain hroom hplain (hflawless.of_prefix (reacts_isPrefix D _ e))
      exact hsame.trans (hclosed hthere)
    refine ⟨fun hthere => ?_, ?_⟩
    · obtain ⟨hwas, hsame⟩ := reacts_of_not_gone D _ e hthere
      rw [hsame]
      exact hthrifty hwas
    · cases hdropped : (reached D source config s es).gone with
      | true =>
        have hunused := (settled_reached D source config s es).gone.symm.trans hdropped
        rw [openedIn_of_unused hunused (fits_reached D source config s es)]
        exact hopened
      | false =>
        rw [openedIn_reacts]
        exact length_openedIn_of_plain hplain (hthrifty hdropped)

/-- What a pool does with its connections in the run of the events `es`, when it wastes none. -/
structure WastesNothing (es : List (Event σ)) : Prop where
  /-- Nothing is closed while the pool is there. -/
  kept : (reached D source config s es).gone = false →
    closedIn (reached D source config s es).log = []
  /-- The event after which the pool is dropped closes nothing before that either. -/
  untilDropped : ∀ past e, past ++ [e] <+: es → (reached D source config s past).gone = false →
    closedIn ((reached D source config s past).reacts D e).log = []
  /-- A handle that is valid when it comes back leaves its connection on the idle list. -/
  returned : ∀ past key h, past ++ [.release key] <+: es →
    (reached D source config s past).handle? key = some h →
    h.id ∈ (reached D source config s past).world.pool.valid →
    ∃ c ∈ (reached D source config s past).world.pool.active, c.handle = h ∧
      ((reached D source config s past).reacts D (.release key)).world.pool.idle =
        (reached D source config s past).world.pool.idle ++
          [(reached D source config s past).world.pool.rewrapped c
            (reached D source config s past).world.now]
  /-- Over the whole run, no more connections are asked for than may be out at one time. -/
  connects : ((reached D source config s es).log.filter Exchange.isConnect).length ≤ config.maxActive

/-- **No connection is wasted** in a run without flaws in which nobody interferes, by a pool that may
    keep as many connections as may be out. -/
theorem wastes_nothing (hroom : config.maxActive ≤ config.maxIdle) (es : List (Event σ))
    (hplain : AllPlain es) (hflawless : Flawless (reached D source config s es).log) :
    WastesNothing D source config s es := by
  have hpast : ∀ past e, past ++ [e] <+: es → AllPlain (past ++ [e]) ∧
      Flawless ((reached D source config s past).reacts D e).log := by
    intro past e htook
    have hafter := hflawless.of_prefix (log_isPrefix D source config s htook)
    rw [reached_concat] at hafter
    exact ⟨hplain.of_prefix htook, hafter.of_prefix (reacts_isPrefix D _ e)⟩
  obtain ⟨hkept, hopened⟩ := closes_nothing D source config s hroom es hplain hflawless
  refine ⟨hkept, ?untilDropped, ?returned, hflawless.length_openedIn ▸ hopened⟩
  case untilDropped =>
    intro past e htook hthere
    obtain ⟨hplainThere, hflawlessThere⟩ := hpast past e htook
    have hlog := log_isPrefix D source config s ((List.prefix_append past [e]).trans htook)
    have hbefore := closes_nothing D source config s hroom past hplainThere.before
      (hflawless.of_prefix hlog)
    exact (thrifty_of_plain hroom hplainThere hflawlessThere).trans (hbefore.1 hthere)
  case returned =>
    intro past key h htook hhandle hvalid
    obtain ⟨hplainThere, hflawlessThere⟩ := hpast past (.release key) htook
    have howned := owned_reached D source config s past
    obtain ⟨c, hc, hch⟩ := howned.wrapper_of_valid (mem_of_lookup hhandle) hvalid
    have hreacts : ((reached D source config s past).reacts D (.release key)).world =
        (reached D source config s past).world.checkIn (D.observed .pool) h.id := by
      rcases (reached D source config s past).release_cases (D.observed .pool) key with ⟨hnone, -⟩ |
        ⟨h', hh', e'⟩
      · nomatch hnone.symm.trans hhandle
      · obtain rfl := Option.some.inj (hh'.symm.trans hhandle)
        exact congrArg (·.world) e'
    rw [log, hreacts] at hflawlessThere
    refine ⟨c, hc, hch, ?_⟩
    rw [hreacts]
    have hback := World.checkIn_of_keeps howned.roster (keeps_of_plain hroom hplainThere.before) h.id
      hflawlessThere
    exact hback.2 c hc (congrArg Handle.id hch)

end Runs

/-! ## A run with one connection -/

/-- One waits for a connection that another takes over when it is overdue; both who lost it or have it
    return it, and the one who waited has it at last, when the pool itself was let go. -/
def handedOver : List (Event Bank) :=
  [.acquire 0 none, .acquire 1 none, .advance (.ofMillis 20), .acquire 2 none, .release 0, .resume 1,
    .release 2, .resume 1, .letGo, .release 1]

/-- All of them have the same connection, and it is closed when the pool is dropped. -/
theorem wastes_nothing_handedOver :
    ((reached Bank.drivers target keeping [.scripted {}] handedOver).world.pool.counters.requests = 3 ∧
      closedIn (reached Bank.drivers target keeping [.scripted {}] handedOver).log = [⟨0, 1⟩]) ∧
    WastesNothing Bank.drivers target keeping [.scripted {}] handedOver :=
  ⟨by decide +kernel, wastes_nothing Bank.drivers target keeping [.scripted {}] (by decide) handedOver
    (by decide +kernel) (by decide +kernel)⟩

end Machine

end ConnPool
