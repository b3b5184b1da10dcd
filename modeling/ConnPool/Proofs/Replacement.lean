/-
  Dead idle connections are replaced.

  However many of the idle connections are dead, and however their drivers let it be known, an acquisition
  throws them away one after the other and opens a connection in the end.  It cannot be kept from that.
  Its budget does not run out before the idle list does, since the list is never longer than the limit on
  what is kept, and the budget is this limit with the tolerance on top.  And there is room for a connection
  when the list is empty: there was while something was idle, and what is thrown away makes more.

  What the drivers have to do for this is said of the state in which the pool needs them
  (`World.wornOut`): when everything idle was tried out and found bad, they open a connection that is
  open and can be rolled back (`World.opensGood`).  That the pool then finds the connection good as well
  is a fact about the pool: its wrapper is valid, and has been unused for no time, so no probe is due.

  `dead_idle_replaced` says this of every reachable state.
-/
import ConnPool.Proofs.Remains

namespace ConnPool

variable {σ τ : Type}

namespace World

/-! ## What the drivers can do -/

section Drivers

variable (P : Drivers τ) (who : Credentials)

/-- Whether the drivers would open and configure a connection now, say that it is open, and roll it back
    if it has to be. -/
def opensGood (w : World τ) : Bool :=
  match w.pool.source.newConnection P who w.nextConn w.drivers with
  | (.error _, _) => false
  | (.ok (), s) =>
    match P.call w.nextConn .isClosed s with
    | (.ok false, s) =>
      match P.rollbackIfManual w.nextConn s with
      | (.ok (), _) => true
      | _ => false
    | _ => false

/-- What is left of a world when every connection on its idle list was tried out, found bad and thrown
    away; nothing, if one of them was good. -/
def wornOut : List Wrapper → World τ → Option (World τ)
  | [], w => some w
  | c :: rest, w =>
    match (w.onPool fun p => { p with idle := rest }).isGood P c with
    | (true, _) => none
    | (false, w) => wornOut rest (w.reject P c)

end Drivers

variable {P : Drivers τ} {w w₁ w₂ : World τ} {who : Credentials} {c : Wrapper} {startedAt : Instant}

/-- A connection is good if its wrapper is valid, no probe is due, and the driver says that it is open
    and rolls it back. -/
theorem isGood_of_valid {s₁ s₂ : τ} (hvalid : c.id ∈ w.pool.valid)
    (hdue : Drivers.probeDue w.pool.config w.now c = false)
    (hopen : P.call c.conn .isClosed w.drivers = (.ok false, s₁))
    (hback : P.rollbackIfManual c.conn s₁ = (.ok (), s₂)) :
    w.isGood P c = (true, { w with drivers := s₂ }) := by
  have hhealthy : P.isHealthy w.pool.config w.now c w.drivers = (true, s₁) := by
    simp only [Drivers.isHealthy, hopen, hdue, Bool.false_eq_true, if_false]
  have hfit : w.isFit P c = (true, { w with drivers := s₁ }) := by
    unfold isFit
    rw [if_pos (List.contains_iff_mem.2 hvalid), hhealthy]
  simp only [isGood, hfit, run, hback]

/-- What was just opened has been unused for no time, so no probe is due. -/
theorem probeDue_wrapped (config : PoolConfig) (w : World τ) (who : Credentials) (conn : Conn) :
    Drivers.probeDue config w.now (w.pool.wrapped conn who w.now) = false := by
  simp [Drivers.probeDue, Pool.wrapped, Duration.sub_self, Duration.not_lt_zero]

/-- The pool finds a connection good that the drivers open as they should. -/
theorem openCandidate_of_opensGood (h : w.opensGood P who = true) : ∃ c w₁ w₂,
    w.openCandidate P who = (.found c, w₁) ∧ w₁.isGood P c = (true, w₂) ∧
      w₂.pool.active = w.pool.active := by
  rcases w.openCandidate_cases P who with ⟨e, s, hs, -⟩ | ⟨s, hs, hfound⟩
  · simp [opensGood, hs] at h
  · rcases hopen : P.call w.nextConn .isClosed s with ⟨r, s₁⟩
    rcases hback : P.rollbackIfManual w.nextConn s₁ with ⟨r', s₂⟩
    obtain ⟨rfl, rfl⟩ : r = .ok false ∧ r' = .ok () := by
      simp only [opensGood, hs, hopen] at h
      rcases r with e | _ | _ <;> simp only [hback, Bool.false_eq_true] at h
      rcases r' with e | u
      · nomatch h
      · exact ⟨rfl, rfl⟩
    refine ⟨_, _, _, hfound, isGood_of_valid ?_ (probeDue_wrapped _ w who _) hopen hback, rfl⟩
    exact List.mem_cons_self

/-! ## The loop -/

theorem tryOut_of_good (budget r : Nat) (ht : w.takeCandidate P who = (.found c, w₁))
    (hg : w₁.isGood P c = (true, w₂)) : w.tryOut P who startedAt budget r =
      (.handedOut (w₂.handOut who startedAt c).1, (w₂.handOut who startedAt c).2) := by
  unfold tryOut
  rw [ht]
  simp only [hg]

theorem tryOut_of_bad (budget r : Nat) (ht : w.takeCandidate P who = (.found c, w₁))
    (hg : w₁.isGood P c = (false, w₂)) (hword : w.pool.config.badBudget < wordLimit) :
    w.tryOut P who startedAt (budget + 1) r =
      (w₂.reject P c).tryOut P who startedAt budget (r + 1) := by
  rw [← config_of_rejected ht hg] at hword
  conv => lhs; unfold tryOut
  rw [ht]
  simp only [hg, if_pos hword]

/-- How a pass ends that hands out a connection beside those that are out, having rejected so many of
    the idle ones. -/
structure Replaces (w : World τ) (rejected : List Wrapper) (end_ : PassEnd × World τ) (c : Wrapper) :
    Prop where
  handedOut : end_.1 = .handedOut c.handle
  rejected : rejected <+: w.pool.idle
  active : end_.2.pool.active = w.pool.active ++ [c]

/-- What is left when the first of the idle list was found bad and thrown away. -/
theorem reject_idle {rest : List Wrapper}
    (hg : (w.onPool fun p => { p with idle := rest }).isGood P c = (false, w₂)) :
    (w₂.reject P c).pool.idle = rest ∧ (w₂.reject P c).pool.active = w.pool.active ∧
      (w₂.reject P c).pool.config = w.pool.config := by
  rw [reject_pool, pool_of_isGood P hg]
  exact ⟨rfl, rfl, rfl⟩

/-- **A pass gets through the idle list**, if its budget is not smaller, and opens a connection if it has
    to. -/
theorem tryOut_replaces (P : Drivers τ) (who : Credentials) (startedAt : Instant) :
    ∀ (l : List Wrapper) (budget r : Nat) (w : World τ), w.pool.idle = l → l.length ≤ budget →
      w.pool.config.badBudget < wordLimit → w.pool.active.length < w.pool.config.maxActive →
      (∀ w', w.wornOut P l = some w' → w'.opensGood P who = true) →
      ∃ c, w.Replaces (w.rejects P who budget) (w.tryOut P who startedAt budget r) c := by
  -- one turn of the loop for each connection of the list, and one more when it is empty
  intro l
  induction l with
  | nil =>
    intro budget r w hi _ _ hroom hopens
    obtain ⟨c, w₁, w₂, hfound, hgood, hactive⟩ := openCandidate_of_opensGood (hopens w rfl)
    have ht : w.takeCandidate P who = (.found c, w₁) := by
      rw [← hfound]
      simp only [takeCandidate, hi, if_pos hroom]
    rw [rejects_of_good budget ht hgood, tryOut_of_good budget r ht hgood]
    refine ⟨w₂.stamped who c, rfl, List.nil_prefix, ?_⟩
    rw [handOut_pool, hactive]
  | cons c rest ih =>
    intro budget r w hi hbudget hword hroom hopens
    have ht : w.takeCandidate P who = (.found c, w.onPool fun p => { p with idle := rest }) := by
      simp only [takeCandidate, hi]
    rcases hg : (w.onPool fun p => { p with idle := rest }).isGood P c with ⟨good, w₂⟩
    cases good with
    | true =>
      rw [rejects_of_good budget ht hg, tryOut_of_good budget r ht hg]
      refine ⟨w₂.stamped who c, rfl, List.nil_prefix, ?_⟩
      rw [handOut_pool, pool_of_isGood P hg]
      rfl
    | false =>
      -- the budget pays for the connection, and what is left of it for the others
      rw [List.length_cons] at hbudget
      obtain ⟨b, rfl⟩ : ∃ b, budget = b + 1 := ⟨budget - 1, by omega⟩
      obtain ⟨hidle, hactive, hlimits⟩ := reject_idle hg
      have hlater : w.wornOut P (c :: rest) = (w₂.reject P c).wornOut P rest := by
        simp only [wornOut, hg]
      rw [hlater] at hopens
      rw [rejects_of_bad _ ht hg, tryOut_of_bad b r ht hg hword]
      rw [← hlimits] at hword
      rw [← hactive, ← hlimits] at hroom
      obtain ⟨d, hd⟩ := ih b (r + 1) (w₂.reject P c) hidle (by omega) hword hroom hopens
      have hrejected := hd.rejected
      rw [hidle] at hrejected
      simp only [if_pos hword]
      refine ⟨d, hd.handedOut, ?_, ?_⟩
      · rw [hi]
        exact List.cons_prefix_cons.2 ⟨rfl, hrejected⟩
      · rw [hd.active, hactive]

/-- A pass that is served without taking anything from anybody counts that, and what it has rejected. -/
theorem Replaces.counters {budget r : Nat}
    (h : w.Replaces (w.rejects P who budget) (w.tryOut P who startedAt budget r) c) :
    (w.tryOut P who startedAt budget r).2.pool.counters = w.pool.counters + {
      requests := 1
      requestTime := w.now - startedAt
      badConnections := (w.rejects P who budget).length } := by
  obtain ⟨taken, rest, htally⟩ := w.tryOut_tally P who startedAt budget r
  have htaken : taken = [] := by
    obtain ⟨d, hactive, -⟩ := htally.handedOut _ h.handedOut
    have hlengths := congrArg List.length (h.active.symm.trans hactive)
    rw [htally.before] at hlengths
    simp only [List.length_append, List.length_singleton] at hlengths
    exact List.length_eq_zero_iff.1 (by omega)
  have hcounters := htally.counters
  rw [htaken, h.handedOut] at hcounters
  rw [hcounters]
  simp [Counters.add_def, tallyOfReclaims, tallyOfBad, tallyOfEnd, agesOf]

end World

/-! ## Every reachable state -/

namespace Machine

/-- On whose behalf an acquisition opens a connection. -/
def caller (m : Machine τ) (who : Option Credentials) : Credentials :=
  who.getD m.world.pool.source.config.credentials

/-- When a pool can serve an acquisition, however many of its idle connections are bad. -/
structure CanReplace (D : Drivers σ) (m : Machine (Observed σ)) (who : Option Credentials) : Prop where
  notShut : m.world.pool.closed = false
  /-- The budget fits in a word. -/
  inWord : m.world.pool.config.maxIdle + m.world.pool.config.badConnectionTolerance < wordLimit
  room : m.world.pool.idle ≠ [] ∨ m.world.pool.active.length < m.world.pool.config.maxActive
  /-- When everything idle was found bad, the drivers open a good connection for the caller. -/
  opens : ∀ w, m.world.wornOut (D.observed .pool) m.world.pool.idle = some w →
    w.opensGood (D.observed .pool) (m.caller who) = true

/-- An acquisition on the machine is served at once, with the connection in the wrapper. -/
structure ServedAtOnce (D : Drivers σ) (m : Machine (Observed σ)) (key : Key)
    (who : Option Credentials) (c : Wrapper) : Prop where
  outcome : (m.observe D (.acquire key who)).1 = .acquired c.handle
  /-- Nobody has come to wait, and whoever waits or has a handle is the same. -/
  others : (m.observe D (.acquire key who)).2 = { m with
    world := (m.observe D (.acquire key who)).2.world
    handles := m.handles ++ [(key, c.handle)] }
  valid : c.id ∈ (m.observe D (.acquire key who)).2.world.pool.valid
  /-- Nothing was taken from anybody. -/
  active : (m.observe D (.acquire key who)).2.world.pool.active = m.world.pool.active ++ [c]
  /-- What it has rejected was idle, so it is not more than is kept, … -/
  rejected : m.rejectedBy D (.acquire key who) <+: m.world.pool.idle
  atMost : (m.rejectedBy D (.acquire key who)).length ≤ m.world.pool.config.maxIdle
  /-- … and is closed. -/
  closed : ∀ d ∈ m.rejectedBy D (.acquire key who),
    d.conn ∈ closedIn (m.observe D (.acquire key who)).2.world.drivers.log
  counters : (m.observe D (.acquire key who)).2.world.pool.counters = m.world.pool.counters + {
    requests := 1
    badConnections := (m.rejectedBy D (.acquire key who)).length }

section Served

variable {D : Drivers σ} {m : Machine (Observed σ)} {key : Key} {who : Option Credentials}

/-- There is room for a connection while one is idle. -/
theorem CanReplace.space (h : CanReplace D m who) (hfits : m.world.pool.Fits) :
    m.world.pool.active.length < m.world.pool.config.maxActive := by
  rcases h.room with hidle | hspace
  · have hsome := List.length_pos_iff.2 hidle
    have htotal := hfits.total
    omega
  · exact hspace

/-- The budget is not smaller than the idle list. -/
theorem budget_of_fits (hfits : m.world.pool.Fits) :
    m.world.pool.idle.length ≤ m.world.pool.config.badBudget :=
  Nat.le_trans hfits.idle (Nat.le_add_right _ _)

/-- A pass that gets through the idle list serves its acquisition at once. -/
theorem servedAtOnce_of_replaces {c : Wrapper} (hfits : m.world.pool.Fits)
    (hroster : (m.observe D (.acquire key who)).2.world.pool.Roster
      (m.observe D (.acquire key who)).2.world.pool.wrappers)
    (hadmits : m.admits (.acquire key who) = true) (hopen : m.world.pool.closed = false)
    (hserves : m.world.Replaces
      (m.world.rejects (D.observed .pool) (m.caller who) m.world.pool.config.badBudget)
      (m.world.tryOut (D.observed .pool) (m.caller who) m.world.now m.world.pool.config.badBudget 0) c) :
    ServedAtOnce D m key who c := by
  have hpass : m.pass? (.acquire key who : Event σ) = some (m, key, _) := pass?_acquire hadmits
  have hrejected : m.rejectedBy D (.acquire key who) =
      m.world.rejects (D.observed .pool) (m.caller who) m.world.pool.config.badBudget :=
    (observe_of_open hpass hopen).2.1
  have hclosed := World.closed_of_rejects D (m.caller who) m.world.now m.world.pool.config.badBudget 0
    m.world hfits
  have hcounters := hserves.counters
  rcases ht : m.world.tryOut (D.observed .pool) (m.caller who) m.world.now
    m.world.pool.config.badBudget 0 with ⟨r, w⟩
  rw [ht] at hserves hclosed hcounters
  rw [← hrejected] at hserves hclosed hcounters
  obtain rfl : r = .handedOut c.handle := hserves.handedOut
  have hafter : m.observe D (.acquire key who) = (.acquired c.handle,
      { m with world := w, handles := m.handles ++ [(key, c.handle)] }) := by
    -- the pool does not come to its end, since who acquires holds it
    have hheld : m.held = true := (Bool.and_eq_true_iff.1 hadmits).1
    rw [observe_of_pass? D hpass, pass_of_handedOut _ hopen ht]
    exact congrArg _ (settle_of_held _ hheld)
  rw [hafter] at hroster
  constructor
  case outcome => rw [hafter]
  case others => rw [hafter]
  case valid =>
    rw [hafter]
    refine (hroster.valid _).2 (List.mem_map_of_mem (List.mem_append_left _ ?_))
    exact hserves.active ▸ List.mem_append_right _ List.mem_cons_self
  case active =>
    rw [hafter]
    exact hserves.active
  case rejected => exact hserves.rejected
  case atMost => exact Nat.le_trans hserves.rejected.length_le hfits.idle
  case closed =>
    rw [hafter]
    exact hclosed
  case counters =>
    -- the acquisition has begun just now, so it took no time
    rw [hafter]
    rwa [Duration.sub_self] at hcounters

end Served

/-- **Dead idle connections are replaced.**  An acquisition is served at once whenever something is idle
    or there is room for another connection, if the drivers open one that is good when everything idle was
    found bad. -/
theorem dead_idle_replaced (D : Drivers σ) (source : Source) (config : PoolConfig) (s : σ)
    (es : List (Event σ)) {key : Key} {who : Option Credentials}
    (hadmits : (reached D source config s es).admits (.acquire key who) = true)
    (hcan : CanReplace D (reached D source config s es) who) :
    ∃ c, ServedAtOnce D (reached D source config s es) key who c := by
  have hroster := (owned_reached D source config s (es ++ [.acquire key who])).roster
  rw [reached_concat] at hroster
  have hfits := fits_reached D source config s es
  generalize reached D source config s es = m at hadmits hcan hroster hfits ⊢
  obtain ⟨c, hc⟩ := World.tryOut_replaces (D.observed .pool) (m.caller who) m.world.now
    m.world.pool.idle m.world.pool.config.badBudget 0 m.world rfl (budget_of_fits hfits)
    hcan.inWord (hcan.space hfits) hcan.opens
  exact ⟨c, servedAtOnce_of_replaces hfits hroster hadmits hcan.notShut hc⟩

/-- Two connections at most, and both are kept. -/
def pair : PoolConfig :=
  { maxActive := 2
    maxIdle := 2 }

/-- Two connections are opened and come back, and both go bad. -/
def decay : List (Event Bank) :=
  [.acquire 0 none, .acquire 1 none, .release 0, .release 1,
    .disturb (·.tamper 0 (.rules [{ call := "is_closed", conn := some 1 },
      { call := "is_closed", conn := some 2 }]))]

/-- Both are rejected, and a third is opened. -/
theorem dead_idle_replaced_pair :
    ((reached Bank.drivers target pair [.scripted {}] decay).rejectedBy Bank.drivers
      (.acquire 2 none)).length = 2 ∧
    ∃ c, ServedAtOnce Bank.drivers (reached Bank.drivers target pair [.scripted {}] decay) 2 none c := by
  have hcan : CanReplace Bank.drivers (reached Bank.drivers target pair [.scripted {}] decay) none := by
    constructor
    case notShut => decide +kernel
    case inWord => decide +kernel
    case room => exact Or.inl (by decide +kernel)
    case opens => exact (Option.all_eq_true _ _).1 (by decide +kernel)
  exact ⟨by decide +kernel, dead_idle_replaced Bank.drivers target pair [.scripted {}] decay
    (by decide +kernel) hcan⟩

end Machine

end ConnPool
