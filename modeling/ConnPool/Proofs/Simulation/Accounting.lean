/-
  The accounts of a rehearsal.

  Every iteration of every worker ends in one of two ways, with a connection or without; so what has
  been handed out, what has been refused and what is still owed are together as many as the workers were
  told to make (`Move.answered`).  In the end nothing is owed, nobody holds anything, and the shutdown
  finds nothing that is out and closes the rest.

  If nothing is probed, no connection is found bad but by whoever has lost it: nobody is refused a
  connection, every request is followed by one statement, and the statements fail in turn, whatever the
  order is in which the workers come to them (`Undisputed`).
-/
import ConnPool.Proofs.Simulation.Balance
import ConnPool.Proofs.Simulation.Termination

namespace ConnPool

namespace Simulation

section Stages

variable {source : Source} {config : PoolConfig} {load : Workload} {x y : Stage} {w : Nat}
  {o : Outcome} {s : Simulation}

/-! ## Every iteration is answered -/

/-- How many iterations there are: those answered by a connection, those refused one, and those that are
    still owed. -/
def iterations (s : Simulation) : Nat :=
  s.counters.requests + s.acquireFailures + s.places.owed

theorem work_acquireFailures (s : Simulation) (w : Nat) :
    (s.work w).acquireFailures = s.acquireFailures := by
  rw [work_eq]

/-- A return is no answer. -/
theorem iterations_release {memory : Memory} {hd : Handle}
    (h : Machine.InRehearsal Memory.drivers source config memory s.machine)
    (hk : s.machine.handle? w = some hd) : (s.release w).iterations = s.iterations := by
  have howed : (s.release w).places.owed = s.places.owed := by
    rw [release_places h.inUse hk, Places.wake_owed]
    rfl
  rw [iterations, iterations, howed, (release_counters h hk).1]
  rfl

/-- A statement is no answer. -/
theorem iterations_work (huse : s.machine.InUse config) (w : Nat) :
    (s.work w).iterations = s.iterations := by
  rw [iterations, iterations, work_counters huse, work_acquireFailures, work_places huse]

/-- A request that is answered by a connection is owed no more. -/
theorem Asked.iterations (h : Asked source config load x w o s)
    (hx : Orderly source config load x) :
    s.iterations + (o.isRefused.toNat) = x.2.iterations := by
  have hrequests := h.requests hx
  have howed := h.owed
  rw [Simulation.iterations, Simulation.iterations, h.acquireFailures, hrequests]
  cases h.served with
  | acquired =>
    have hless := howed.2 nofun
    show _ + 1 + _ + _ + 0 = _
    omega
  | waits =>
    have hsame := howed.1 rfl
    show _ + 0 + _ + _ + 0 = _
    omega
  | refused =>
    have hless := howed.2 nofun
    show _ + 0 + _ + _ + 1 = _
    omega

/-- **No move loses an iteration.** -/
theorem Move.iterations (hmove : Move x y) (hx : Orderly source config load x) :
    y.2.iterations = x.2.iterations := by
  cases hmove with
  | starts | stops => rfl
  | @returns s w rest hd next holds =>
    exact iterations_release (s := { s with queue := rest }) hx.rehearsal holds
  | @holds _ w hd s asks long =>
    have hasked := hx.asked asks
    exact (iterations_work hasked.rehearsal.inUse w).trans (hasked.iterations hx)
  | @hurries _ w hd s asks short =>
    have hasked := hx.asked asks
    have hreturned := iterations_release (work_rehearsal hasked.rehearsal w) (hasked.works hx)
    exact hreturned.trans
      ((iterations_work hasked.rehearsal.inUse w).trans (hasked.iterations hx))
  | @parks _ w s asks =>
    have hasked := hx.asked asks
    have hwaits : (s.await w).iterations = s.iterations := by
      rw [await_eq]
      rfl
    exact hwaits.trans (hasked.iterations hx)
  | @fails _ w o s asks nothing ends =>
    have hasked := hx.asked asks
    have hcount := hasked.iterations hx
    cases hasked.served with
    | acquired => exact absurd rfl (nothing _)
    | waits => exact absurd rfl ends
    | refused =>
      rw [← hcount]
      show s.counters.requests + (s.acquireFailures + 1) + s.places.owed =
        s.counters.requests + s.acquireFailures + s.places.owed + 1
      omega
  | @ticks s idle going =>
    have hstep := Machine.step_advance Memory.drivers hx.rehearsal.inUse (.ofMillis 1)
    have hcounters : s.tick.counters = s.counters :=
      congrArg (·.world.pool.counters) hstep
    have howed : s.tick.places.owed = s.places.owed := by
      rw [tick_places hx.rehearsal.inUse]
      rfl
    show s.tick.iterations = s.iterations
    rw [Simulation.iterations, Simulation.iterations, hcounters, howed]
    rfl

/-! ## Without probes -/

/-- Everybody was given a connection, ran one statement through it, and every `k`-th of them failed. -/
structure Undisputed (k : Nat) (s : Simulation) : Prop where
  statements : s.machine.world.drivers.statements = s.counters.requests
  statementFailures : s.statementFailures = s.counters.requests / k
  acquireFailures : s.acquireFailures = 0

/-- Where the workers are does not matter. -/
theorem Undisputed.of_machine {s' : Simulation} {k : Nat} (h : s.Undisputed k)
    (hmachine : s'.machine = s.machine) (hstatements : s'.statementFailures = s.statementFailures)
    (hacquire : s'.acquireFailures = s.acquireFailures) : s'.Undisputed k := by
  refine ⟨?_, ?_, hacquire.trans h.acquireFailures⟩
  · rw [counters, hmachine]
    exact h.statements
  · rw [counters, hmachine, hstatements]
    exact h.statementFailures

/-- One statement more makes one failure more if it is its turn. -/
theorem div_succ (n k : Nat) :
    (n + 1) / k = n / k + if 0 < k ∧ (n + 1) % k = 0 then 1 else 0 := by
  have hturn : k ∣ n + 1 ↔ 0 < k ∧ (n + 1) % k = 0 := by
    constructor
    · intro hdvd
      exact ⟨Nat.pos_of_dvd_of_pos hdvd (Nat.succ_pos n), Nat.mod_eq_zero_of_dvd hdvd⟩
    · exact fun h => Nat.dvd_of_mod_eq_zero h.2
  rw [Nat.succ_div]
  simp only [hturn]

/-- A pool that does not probe runs no statement in a pass. -/
theorem Asked.unprobed (h : Asked source config load x w o s) (hx : Orderly source config load x)
    (hping : config.pingEnabled = false) (hactive : 0 < config.maxActive) :
    (∀ err, o ≠ .refused err) ∧
      s.machine.world.drivers.statements = x.2.machine.world.drivers.statements := by
  obtain ⟨e, m₀, a, hpass, hstep⟩ := h.passes
  have huse := hx.rehearsal.inUse
  have hgiven := (hx.rehearsal.unprobed_pass hping hactive hpass).1
  have hcount := Machine.pass_rounds
    (World.statements_ledger x.2.machine.world.drivers.statements).rounds huse hpass fun _ => rfl
  rw [hstep] at hgiven hcount
  refine ⟨hgiven, hcount ?_⟩
  rw [h.rehearsal.inUse.config]
  exact hping

/-- A pool that does not probe runs no statement in a return. -/
theorem release_statements {memory : Memory} {hd : Handle}
    (h : Machine.InRehearsal Memory.drivers source config memory s.machine)
    (hping : config.pingEnabled = false) (hk : s.machine.handle? w = some hd) :
    (s.release w).machine.world.drivers.statements = s.machine.world.drivers.statements := by
  refine Machine.release_rounds (World.statements_ledger s.machine.world.drivers.statements).rounds
    h.inUse hk (fun _ => rfl) ?_
  have hafter := (h.step (.release w)).inUse.config
  rw [hafter]
  exact hping

/-- A return disputes nothing. -/
theorem Undisputed.release {memory : Memory} {hd : Handle} {k : Nat} (h : s.Undisputed k)
    (hrehearsal : Machine.InRehearsal Memory.drivers source config memory s.machine)
    (hping : config.pingEnabled = false) (hk : s.machine.handle? w = some hd) :
    (s.release w).Undisputed k := by
  have hrequests := (release_counters hrehearsal hk).1
  constructor
  case statements =>
    rw [release_statements hrehearsal hping hk, hrequests]
    exact h.statements
  case statementFailures =>
    rw [hrequests]
    exact h.statementFailures
  case acquireFailures => exact h.acquireFailures

/-- Whoever is handed a connection runs a statement through it, which fails in its turn. -/
theorem Asked.undisputed {hd : Handle} (h : Asked source config load x w (.acquired hd) s)
    (hx : Orderly source config load x) (hping : config.pingEnabled = false)
    (hactive : 0 < config.maxActive) (hbooks : x.2.Undisputed load.failEvery) :
    (s.work w).Undisputed load.failEvery := by
  obtain ⟨hk, hout⟩ := h.holder hx
  obtain ⟨hcounted, hturn⟩ := h.rehearsal.executed hk hout statement
  have hrequests : (s.work w).counters.requests = x.2.counters.requests + 1 :=
    (congrArg Counters.requests (work_counters h.rehearsal.inUse w)).trans (h.requests hx)
  rw [(h.unprobed hx hping hactive).2, hbooks.statements] at hcounted hturn
  constructor
  case statements =>
    rw [hrequests, work_eq]
    exact hcounted
  case statementFailures =>
    have hfailures : (s.work w).statementFailures = s.statementFailures +
        (s.machine.step Memory.drivers (.use w (.execute statement))).1.isRefused.toNat := by
      rw [work_eq]
    rw [hrequests, hfailures, h.statementFailures, hbooks.statementFailures, div_succ]
    congr 1
    by_cases hfails : 0 < load.failEvery ∧ (x.2.counters.requests + 1) % load.failEvery = 0
    · rw [if_pos hfails, hturn.2 hfails, Bool.toNat_true]
    · rw [if_neg hfails, Bool.eq_false_iff.2 fun hrefused => hfails (hturn.1 hrefused),
        Bool.toNat_false]
  case acquireFailures =>
    rw [work_acquireFailures, h.acquireFailures]
    exact hbooks.acquireFailures

/-- **Without probes nothing is disputed.** -/
theorem Move.undisputed (hmove : Move x y) (hx : Orderly source config load x)
    (hping : config.pingEnabled = false) (hactive : 0 < config.maxActive)
    (hbooks : x.2.Undisputed load.failEvery) : y.2.Undisputed load.failEvery := by
  cases hmove with
  | starts | stops => exact hbooks.of_machine rfl rfl rfl
  | @returns s w rest hd next holds =>
    have hcalled : ({ s with queue := rest } : Simulation).Undisputed load.failEvery :=
      hbooks.of_machine rfl rfl rfl
    exact hcalled.release hx.rehearsal hping holds
  | @holds _ w hd s asks long =>
    exact ((hx.asked asks).undisputed hx hping hactive hbooks).of_machine rfl rfl rfl
  | @hurries _ w hd s asks short =>
    have hasked := hx.asked asks
    exact (hasked.undisputed hx hping hactive hbooks).release
      (work_rehearsal hasked.rehearsal w) hping (hasked.works hx)
  | @parks _ w s asks =>
    have hasked := hx.asked asks
    have hrequests : s.counters.requests = x.2.counters.requests := hasked.requests hx
    rw [await_eq]
    refine ⟨?_, ?_, hasked.acquireFailures.trans hbooks.acquireFailures⟩
    · exact (hasked.unprobed hx hping hactive).2.trans (hbooks.statements.trans hrequests.symm)
    · show s.statementFailures = s.counters.requests / load.failEvery
      rw [hasked.statementFailures, hrequests]
      exact hbooks.statementFailures
  | @fails _ w o s asks nothing ends =>
    have hasked := hx.asked asks
    cases hasked.served with
    | acquired => exact absurd rfl (nothing _)
    | waits => exact absurd rfl ends
    | refused => exact absurd rfl ((hasked.unprobed hx hping hactive).1 _)
  | @ticks s idle going =>
    have hstep := Machine.step_advance Memory.drivers hx.rehearsal.inUse (.ofMillis 1)
    have hworld : s.tick.machine.world.pool = s.machine.world.pool ∧
        s.tick.machine.world.drivers = s.machine.world.drivers := by
      simp only [tick, event, hstep]
      exact ⟨rfl, rfl⟩
    constructor
    case statements =>
      show s.tick.machine.world.drivers.statements = s.tick.machine.world.pool.counters.requests
      rw [hworld.1, hworld.2]
      exact hbooks.statements
    case statementFailures =>
      show s.statementFailures = s.tick.machine.world.pool.counters.requests / load.failEvery
      rw [hworld.1]
      exact hbooks.statementFailures
    case acquireFailures => exact hbooks.acquireFailures

end Stages

/-! ## The report -/

/-- What a finished rehearsal reports, and what it leaves of the driver when its pool is shut down. -/
structure Accounts (limits : PoolConfig) (load : Workload) (report : SimulationReport)
    (driver : Memory) : Prop where
  /-- Every iteration has ended, with a connection or without. -/
  answered : report.stats.requests + report.acquireFailures = load.tasks * load.iterations
  active : report.stats.active = 0
  idle : report.stats.idle ≤ limits.maxIdle
  forceClosed : report.forceClosed = 0
  opened : report.connectionsOpened = driver.conns.length
  closed : ∀ c ∈ driver.conns, c.closed = true
  /-- Without probes nobody is refused, and every statement fails whose turn it is. -/
  acquireFailures : limits.pingEnabled = false → report.acquireFailures = 0
  statementFailures : limits.pingEnabled = false →
    report.statementFailures = load.tasks * load.iterations / load.failEvery
  badConnections : limits.pingEnabled = false →
    report.stats.badConnections = report.stats.claimedOverdue

/-- The driver of a rehearsal when its pool has been shut down. -/
def driverAfter (s : Simulation) : Memory :=
  (s.machine.step Memory.drivers (.shutDown s.load.tasks)).2.world.drivers

section Runs

variable {source : Source} {limits : PoolConfig} {load : Workload} {s : Simulation}

theorem iterations_start (source : Source) (limits : PoolConfig) (load : Workload) :
    (start (.new source limits) load).iterations = load.tasks * load.iterations := by
  rw [iterations, owed_start]
  exact Nat.zero_add _

theorem undisputed_start (source : Source) (limits : PoolConfig) (load : Workload) :
    (start (.new source limits) load).Undisputed load.failEvery :=
  ⟨rfl, (Nat.zero_div load.failEvery).symm, rfl⟩

/-- What is known of every stage and has come to the end is in the report. -/
theorem Orderly.accounts (h : Orderly source limits load (none, s)) (hfinished : s.finished = true)
    (hactive : 0 < limits.maxActive) (hiterations : s.iterations = load.tasks * load.iterations)
    (hundisputed : limits.pingEnabled = false → s.Undisputed load.failEvery) :
    Accounts limits load s.report s.driverAfter := by
  obtain ⟨-, hhandles, hwaiters⟩ := finished_iff.1 hfinished
  have hsound := h.rehearsal.sound
  have hnone := hsound.held.active_eq_nil hhandles
  have hanswered : s.counters.requests + s.acquireFailures = load.tasks * load.iterations := by
    rw [← hiterations, iterations, h.owed_eq_zero hfinished]
    rfl
  constructor
  case answered => exact hanswered
  case active => exact congrArg List.length hnone
  case idle => exact h.rehearsal.inUse.config ▸ hsound.fits.idle
  case forceClosed =>
    have hover := (Machine.step_shutDown (D := Memory.drivers) h.rehearsal.inUse hsound.held hwaiters
      hhandles s.load.tasks).1
    simp only [report, hover]
  case opened => rfl
  case closed => exact h.rehearsal.closed hwaiters hhandles s.load.tasks
  case acquireFailures => exact fun hping => (hundisputed hping).acquireFailures
  case statementFailures =>
    intro hping
    have hall := (hundisputed hping).acquireFailures
    rw [hall, Nat.add_zero] at hanswered
    rw [← hanswered]
    exact (hundisputed hping).statementFailures
  case badConnections =>
    intro hping
    have hbalance := h.rehearsal.balance hping hactive
    rw [hhandles, hnone] at hbalance
    simp only [List.length_nil, Nat.zero_add] at hbalance
    exact hbalance

/-- **The accounts of a rehearsal.** -/
theorem accounts_run (source : Source) (load : Workload) (hword : limits.badBudget < wordLimit)
    (hactive : 0 < limits.maxActive) : Accounts limits load (run (.new source limits) load).report
      (run (.new source limits) load).driverAfter := by
  obtain ⟨horderly, hiterations, hundisputed⟩ := runFor_rule source load hword
    (J := fun x => x.2.iterations = load.tasks * load.iterations ∧
      (limits.pingEnabled = false → x.2.Undisputed load.failEvery))
    (fun hx hmove hJ => ⟨(hmove.iterations hx).trans hJ.1, fun hping =>
      hmove.undisputed hx hping hactive (hJ.2 hping)⟩)
    ⟨iterations_start source limits load, fun _ => undisputed_start source limits load⟩ (turns load)
  exact horderly.accounts (finished_run source load hword) hactive hiterations hundisputed

end Runs

/-- **Every rehearsal keeps its accounts.**  Whatever configuration is accepted, and whatever the workers
    are told to do, the report of the rehearsal says what became of every iteration, and when the pool
    has been shut down every connection of the driver is closed. -/
theorem every_rehearsal_keeps_accounts {text : String} {config : Config}
    (hparse : Config.parse text = .ok config) (hdriver : config.source.driver = "memory")
    (load : Workload) : ∃ pool limits, Pool.ofConfig config 0 = .ok pool ∧
      PoolConfig.ofSettings? config.pool = .ok limits ∧ (run pool load).finished = true ∧
      Commands.simulate (.ok text) load = .ok (run pool load).report ∧
      Accounts limits load (run pool load).report (run pool load).driverAfter := by
  obtain ⟨-, -, -, hvalid⟩ := Config.parse_cases hparse
  obtain ⟨source, limits, hlimits, hactive, hpool⟩ := Config.resolves hvalid
  have hword := Config.budget_of_parse hparse hlimits
  exact ⟨_, limits, hpool, hlimits, finished_run source load hword,
    Commands.simulate_ok hparse hdriver hpool load, accounts_run source load hword hactive⟩

/-- A pool that probes nothing, in which connections are taken away from those who hold them. -/
def unprobed : Config where
  source := { driver := "memory", url := "memory://rehearsal" }
  pool := some { maxActive := some 1, maxCheckoutTime := some "1ms", timeToWait := some "1ms" }

theorem every_rehearsal_keeps_accounts_unprobed : ∃ text, Config.parse text = .ok unprobed ∧
    ∃ pool limits, Pool.ofConfig unprobed 0 = .ok pool ∧
      PoolConfig.ofSettings? unprobed.pool = .ok limits ∧
      (run pool ⟨3, 2, 5, 2⟩).finished = true ∧
      Commands.simulate (.ok text) ⟨3, 2, 5, 2⟩ = .ok (run pool ⟨3, 2, 5, 2⟩).report ∧
      Accounts limits ⟨3, 2, 5, 2⟩ (run pool ⟨3, 2, 5, 2⟩).report
        (run pool ⟨3, 2, 5, 2⟩).driverAfter ∧
      limits.pingEnabled = false ∧ (run pool ⟨3, 2, 5, 2⟩).report.statementFailures = 3 := by
  have hvalid : unprobed.validate = .ok () := rfl
  obtain ⟨text, -, hparse⟩ := Config.parse_of_writable hvalid rfl
  obtain ⟨pool, limits, hpool, hlimits, hfinished, hreport, haccounts⟩ :=
    every_rehearsal_keeps_accounts hparse rfl ⟨3, 2, 5, 2⟩
  have hping : limits.pingEnabled = false := by
    have hknown : (PoolConfig.ofSettings? unprobed.pool).map (·.pingEnabled) = .ok false := rfl
    rw [hlimits] at hknown
    exact Except.ok.inj hknown
  exact ⟨text, hparse, pool, limits, hpool, hlimits, hfinished, hreport, haccounts, hping,
    haccounts.statementFailures hping⟩

end Simulation

end ConnPool
