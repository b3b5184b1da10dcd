/-
  How much work a rehearsal gets done.

  Every request that is answered occupies one of the `maxActive` slots of the pool for exactly one hold,
  as long as no connection is taken away from its holder.  That does not happen if connections are held
  no longer than they may be: when a hold is over, the connection is not overdue yet
  (`Orderly.inTime`), and its holder is in the queue before the clock moves on.

  So the milliseconds for which connections were handed out are at most those that the slots have had so
  far, together with those for which the connections that are out will still be held (`Within`).  A
  millisecond gives `maxActive` to the first and takes one of the second for each holder.

  The clock does not run for longer than connections are held one after the other (`elapsed_run`).
-/
import ConnPool.Proofs.Simulation.Balance
import ConnPool.Proofs.Simulation.Termination

namespace ConnPool

namespace Simulation

/-- The time that a rehearsal has taken so far, in milliseconds. -/
def elapsed (s : Simulation) : Nat :=
  s.machine.world.now.millis

section Stages

variable {source : Source} {config : PoolConfig} {load : Workload} {x y : Stage} {w : Nat}
  {o : Outcome} {s : Simulation}

/-! ## Nothing is taken away -/

/-- Nobody holds a connection for longer than a hold. -/
theorem Orderly.inTime (h : Orderly source config load x) {c : Wrapper}
    (hc : c ∈ x.2.machine.world.pool.active) :
    x.2.machine.world.now - c.checkoutAt ≤ .ofMillis load.holdMillis := by
  obtain ⟨key, hkey⟩ := h.rehearsal.sound.held c hc
  have hnow : x.2.machine.world.now ≤ c.checkoutAt + .ofMillis load.holdMillis := by
    obtain ⟨-, ⟨-, hover⟩ | htimer⟩ := h.sensible.holders (key, c.handle) hkey
    · exact Nat.le_of_eq (congrArg Duration.nanos hover)
    · exact Nat.le_of_lt (h.sensible.future _ htimer)
  rw [Duration.le_iff, Duration.nanos_add] at hnow
  rw [Duration.le_iff, Duration.nanos_sub]
  omega

/-- If a hold is no longer than a connection may be out, a request reclaims nothing. -/
theorem Asked.claimedOverdue (h : Asked source config load x w o s)
    (hx : Orderly source config load x)
    (hhold : Duration.ofMillis load.holdMillis ≤ config.maxCheckoutTime) :
    s.counters.claimedOverdue = x.2.counters.claimedOverdue := by
  obtain ⟨taken, rest, bad, hcounts⟩ := h.counts hx
  have hnone : taken = [] := by
    refine List.eq_nil_iff_forall_not_mem.2 fun c hc => ?_
    have hover := hcounts.overdue c hc
    have htime := hx.inTime (hcounts.before ▸ List.mem_append_left rest hc)
    rw [hx.rehearsal.inUse.config, Duration.lt_iff] at hover
    rw [Duration.le_iff] at htime hhold
    omega
  have hclaimed := hcounts.claimedOverdue
  rw [hnone] at hclaimed
  exact hclaimed

/-! ## Time -/

/-- The places of the workers tell the time. -/
theorem elapsed_eq (s : Simulation) : s.elapsed = s.places.now.millis := rfl

theorem elapsed_tick (huse : s.machine.InUse config) : s.tick.elapsed = s.elapsed + 1 := by
  have hnow : s.tick.places.now = s.machine.world.now + .ofMillis 1 := by
    rw [tick_places huse]
    rfl
  rw [elapsed_eq, hnow, elapsed, Duration.millis, Duration.millis, Duration.nanos_add,
    Duration.nanos_ofMillis]
  omega

/-- A turn takes no time. -/
theorem elapsed_release {memory : Memory} {hd : Handle}
    (h : Machine.InRehearsal Memory.drivers source config memory s.machine)
    (hk : s.machine.handle? w = some hd) : (s.release w).elapsed = s.elapsed := by
  rw [elapsed_eq, release_places h.inUse hk]
  rfl

theorem elapsed_work (huse : s.machine.InUse config) (w : Nat) :
    (s.work w).elapsed = s.elapsed := by
  rw [elapsed_eq, work_places huse, elapsed_eq]

/-! ## The area -/

/-- What a move does to the slots of the pool: one is given to a request for the time of a hold; or
    nobody gains or loses time; or every holder has held for a millisecond more. -/
inductive Occupies (load : Workload) (x y : Stage) : Prop
  | grants (requests : y.2.counters.requests = x.2.counters.requests + 1)
      (time : y.2.elapsed = x.2.elapsed)
      (rest : y.2.places.rest (.ofMillis load.holdMillis) =
        x.2.places.rest (.ofMillis load.holdMillis) + load.holdMillis)
  | idles (requests : y.2.counters.requests = x.2.counters.requests)
      (time : y.2.elapsed = x.2.elapsed)
      (rest : y.2.places.rest (.ofMillis load.holdMillis) =
        x.2.places.rest (.ofMillis load.holdMillis))
  | passes (requests : y.2.counters.requests = x.2.counters.requests)
      (time : y.2.elapsed = x.2.elapsed + 1)
      (rest : y.2.places.rest (.ofMillis load.holdMillis) + x.2.machine.handles.length =
        x.2.places.rest (.ofMillis load.holdMillis))
      (owed : y.2.places.owed = x.2.places.owed) (held : 0 < x.2.machine.handles.length)

/-- Who is given no connection holds none. -/
theorem Asked.idles (h : Asked source config load x w o s) (hx : Orderly source config load x)
    (hnothing : ∀ hd, o ≠ .acquired hd) : s.counters.requests = x.2.counters.requests ∧
      s.elapsed = x.2.elapsed ∧ s.places.rest (.ofMillis load.holdMillis) =
        x.2.places.rest (.ofMillis load.holdMillis) := by
  have hrequests := h.requests hx
  rw [handle?_eq_none hnothing] at hrequests
  have hhandles : s.places.handles = x.2.places.handles := by
    cases h.served with
    | acquired => exact absurd rfl (hnothing _)
    | waits _ handles | refused _ handles => exact handles
  refine ⟨hrequests, congrArg Duration.millis h.now, ?_⟩
  have hnow : s.places.now = x.2.places.now := h.now
  rw [Places.rest, Places.rest, hhandles, hnow]

/-- **A move grants a hold, or lets a millisecond pass, or does nothing to the slots.** -/
theorem Move.occupies (hmove : Move x y) (hx : Orderly source config load x) :
    Occupies load x y := by
  cases hmove with
  | starts | stops => exact .idles rfl rfl rfl
  | @returns s w rest hd next holds =>
    have hrehearsal : Machine.InRehearsal Memory.drivers source config
        { failEvery := load.failEvery } ({ s with queue := rest } : Simulation).machine :=
      hx.rehearsal
    exact .idles (release_counters hrehearsal holds).1 (elapsed_release hrehearsal holds)
      (hx.returned next holds).2.2
  | @holds _ w hd s asks long =>
    have hasked := hx.asked asks
    have huse := hasked.rehearsal.inUse
    have hplaces : ((s.work w).hold w).places.rest (.ofMillis load.holdMillis) =
        s.places.rest (.ofMillis load.holdMillis) := by
      rw [hold_places, work_places huse]
      rfl
    refine .grants ?_ ?_ (hplaces.trans (hasked.rest load.holdMillis))
    · exact (congrArg Counters.requests (work_counters huse w)).trans (hasked.requests hx)
    · exact (elapsed_work huse w).trans (congrArg Duration.millis hasked.now)
  | @hurries _ w hd s asks short =>
    have hasked := hx.asked asks
    have huse := hasked.rehearsal.inUse
    have hworked := work_rehearsal hasked.rehearsal w
    have hk := hasked.works hx
    have hshort : load.holdMillis = 0 := hasked.workload ▸ short
    have hrequests : (s.work w).counters.requests = x.2.counters.requests + 1 :=
      (congrArg Counters.requests (work_counters huse w)).trans (hasked.requests hx)
    refine .grants ((release_counters hworked hk).1.trans hrequests) ?_ ?_
    · exact (elapsed_release hworked hk).trans
        ((elapsed_work huse w).trans (congrArg Duration.millis hasked.now))
    · rw [hasked.hurried, hshort]
      show Places.rest (.ofMillis 0) { s.places with handles := x.2.places.handles } = _
      rw [Places.rest, Places.rest, hasked.handles.2.1]
      rfl
  | @parks _ w s asks =>
    have hwaits : ∀ hd, Outcome.waiting ≠ .acquired hd := fun _ h => Outcome.noConfusion h
    obtain ⟨hrequests, htime, hrest⟩ := (hx.asked asks).idles hx hwaits
    have hplaces : (s.await w).places.rest (.ofMillis load.holdMillis) =
        s.places.rest (.ofMillis load.holdMillis) := by
      rw [await_places]
      rfl
    have hmachine : (s.await w).machine = s.machine := by rw [await_eq]
    refine .idles ?_ ?_ (hplaces.trans hrest)
    · exact (congrArg (·.world.pool.counters.requests) hmachine).trans hrequests
    · exact (congrArg (·.world.now.millis) hmachine).trans htime
  | @fails _ w o s asks nothing ends =>
    obtain ⟨hrequests, htime, hrest⟩ := (hx.asked asks).idles hx nothing
    exact .idles hrequests htime hrest
  | @ticks s idle going =>
    have huse : s.machine.InUse config := hx.rehearsal.inUse
    have hcounters := congrArg (·.world.pool.counters.requests)
      (Machine.step_advance Memory.drivers huse (.ofMillis 1))
    obtain ⟨howed, -, hrest, hheld⟩ := hx.ticked idle going
    exact .passes hcounters (elapsed_tick huse) hrest howed hheld

/-- If a hold is no longer than a connection may be out, no move reclaims anything. -/
theorem Move.claimedOverdue (hmove : Move x y) (hx : Orderly source config load x)
    (hhold : Duration.ofMillis load.holdMillis ≤ config.maxCheckoutTime) :
    y.2.counters.claimedOverdue = x.2.counters.claimedOverdue := by
  have hworks : ∀ {w hd s}, Asked source config load x w (.acquired hd) s →
      (s.work w).counters.claimedOverdue = x.2.counters.claimedOverdue := fun hasked =>
    (congrArg Counters.claimedOverdue (work_counters hasked.rehearsal.inUse _)).trans
      (hasked.claimedOverdue hx hhold)
  cases hmove with
  | starts | stops => rfl
  | @returns s w rest hd next holds =>
    exact (release_counters (s := { s with queue := rest }) hx.rehearsal holds).2
  | holds asks long => exact hworks (hx.asked asks)
  | hurries asks short =>
    have hasked := hx.asked asks
    exact (release_counters (work_rehearsal hasked.rehearsal _) (hasked.works hx)).2.trans
      (hworks hasked)
  | @parks _ w s asks =>
    have hmachine : (s.await w).machine = s.machine := by rw [await_eq]
    exact (congrArg (·.world.pool.counters.claimedOverdue) hmachine).trans
      ((hx.asked asks).claimedOverdue hx hhold)
  | fails asks nothing ends => exact (hx.asked asks).claimedOverdue hx hhold
  | ticks idle going =>
    exact congrArg (·.world.pool.counters.claimedOverdue)
      (Machine.step_advance Memory.drivers hx.rehearsal.inUse (.ofMillis 1))

/-- Nothing was taken away, and the holds granted so far fit into the slots. -/
structure Within (config : PoolConfig) (load : Workload) (x : Stage) : Prop where
  claimedOverdue : x.2.counters.claimedOverdue = 0
  area : x.2.counters.requests * load.holdMillis ≤
    config.maxActive * x.2.elapsed + x.2.places.rest (.ofMillis load.holdMillis)

/-- While nothing is taken away no more handles are held than there are slots. -/
theorem Orderly.slots (h : Orderly source config load x)
    (hclaimed : x.2.counters.claimedOverdue = 0) :
    x.2.machine.handles.length ≤ config.maxActive := by
  have hhandles : x.2.machine.handles.length ≤
      x.2.machine.world.pool.active.length + x.2.counters.claimedOverdue :=
    h.rehearsal.handles_le
  have htotal := h.rehearsal.sound.fits.total
  rw [h.rehearsal.inUse.config] at htotal
  omega

/-- **The holds fit into the slots at every stage.** -/
theorem Move.within (hmove : Move x y) (hx : Orderly source config load x)
    (hhold : Duration.ofMillis load.holdMillis ≤ config.maxCheckoutTime)
    (h : Within config load x) : Within config load y := by
  refine ⟨(hmove.claimedOverdue hx hhold).trans h.claimedOverdue, ?_⟩
  have harea := h.area
  cases hmove.occupies hx with
  | grants requests time rest =>
    rw [requests, time, rest, Nat.succ_mul]
    omega
  | idles requests time rest =>
    rw [requests, time, rest]
    exact harea
  | passes requests time rest owed held =>
    have hslots := hx.slots h.claimedOverdue
    rw [requests, time, Nat.mul_succ]
    omega

/-- **The clock is driven by holders**: a millisecond that passes is one of holding. -/
theorem Move.elapsed (hmove : Move x y) (hx : Orderly source config load x) :
    y.2.elapsed + y.2.places.toHold load.holdMillis ≤
      x.2.elapsed + x.2.places.toHold load.holdMillis := by
  cases hmove.occupies hx with
  | grants requests time rest | idles requests time rest =>
    rw [time]
    cases hmove.progress hx with
    | runs _ toHold | answers _ toHold | passes _ toHold => omega
  | passes requests time rest owed held =>
    rw [time, Places.toHold, Places.toHold, owed]
    omega

end Stages

/-! ## The bound -/

section Runs

variable {source : Source} {limits : PoolConfig} {load : Workload} {s : Simulation}

/-- **A rehearsal takes no longer than its connections are held**, one after the other. -/
theorem elapsed_run (source : Source) (load : Workload) (hword : limits.badBudget < wordLimit) :
    (run (.new source limits) load).elapsed ≤ load.tasks * load.iterations * load.holdMillis := by
  have hstart : (start (.new source limits) load).elapsed +
      (start (.new source limits) load).places.toHold load.holdMillis =
        load.tasks * load.iterations * load.holdMillis := by
    have hnow : (start (.new source limits) load).elapsed = 0 := Nat.zero_div 1000000
    have hrest : (start (.new source limits) load).places.rest (.ofMillis load.holdMillis) = 0 := rfl
    rw [Places.toHold, owed_start, hnow, hrest, Nat.mul_comm load.holdMillis]
    omega
  have hend := (runFor_rule source load hword
    (J := fun x => x.2.elapsed + x.2.places.toHold load.holdMillis ≤
      load.tasks * load.iterations * load.holdMillis)
    (fun hx hmove hJ => Nat.le_trans (hmove.elapsed hx) hJ) (Nat.le_of_eq hstart) (turns load)).2
  exact Nat.le_trans (Nat.le_add_right _ _) hend

/-- The holds of a finished rehearsal fit into the slots. -/
theorem within_run (source : Source) (hword : limits.badBudget < wordLimit)
    (hhold : Duration.ofMillis load.holdMillis ≤ limits.maxCheckoutTime) :
    (run (.new source limits) load).counters.claimedOverdue = 0 ∧
      (run (.new source limits) load).counters.requests * load.holdMillis ≤
        limits.maxActive * (run (.new source limits) load).elapsed := by
  have hstart : Within limits load (none, start (.new source limits) load) :=
    ⟨rfl, (Nat.zero_mul load.holdMillis).symm ▸ Nat.zero_le _⟩
  obtain ⟨horderly, hwithin⟩ := runFor_rule source load hword
    (fun hx hmove hJ => hmove.within hx hhold hJ) hstart (turns load)
  have harea := hwithin.area
  have hnone : (run (.new source limits) load).places.handles = [] :=
    (finished_iff.1 (finished_run source load hword)).2.1
  change _ ≤ _ + (run (.new source limits) load).places.rest (.ofMillis load.holdMillis) at harea
  rw [Places.rest, hnone] at harea
  exact ⟨hwithin.claimedOverdue, harea⟩

end Runs

/-- **The throughput of a rehearsal is bounded by its pool.**  Whatever configuration is accepted, and
    whatever the workers are told to do, if they hold connections for no longer than these may be out,
    no connection is taken away from anybody, and in each millisecond at most `maxActive` holders get a
    millisecond ahead. -/
theorem throughput_within_slots {text : String} {config : Config}
    (hparse : Config.parse text = .ok config) (hdriver : config.source.driver = "memory")
    (load : Workload) : ∃ pool limits report, Pool.ofConfig config 0 = .ok pool ∧
      PoolConfig.ofSettings? config.pool = .ok limits ∧ (run pool load).finished = true ∧
      Commands.simulate (.ok text) load = .ok report ∧
      (Duration.ofMillis load.holdMillis ≤ limits.maxCheckoutTime →
        (run pool load).elapsed < wordLimit → report.stats.claimedOverdue = 0 ∧
          report.stats.requests * load.holdMillis ≤ limits.maxActive * report.elapsedMillis) := by
  obtain ⟨-, -, -, hvalid⟩ := Config.parse_cases hparse
  obtain ⟨source, limits, hlimits, -, hpool⟩ := Config.resolves hvalid
  have hword := Config.budget_of_parse hparse hlimits
  refine ⟨_, limits, _, hpool, hlimits, finished_run source load hword,
    Commands.simulate_ok hparse hdriver hpool load, fun hhold helapsed => ?_⟩
  obtain ⟨hclaimed, harea⟩ := within_run source hword hhold
  have hmillis : (run (.new source limits) load).report.elapsedMillis =
      (run (.new source limits) load).elapsed := saturate_of_lt helapsed
  rw [hmillis]
  exact ⟨hclaimed, harea⟩

theorem throughput_within_slots_patient : ∃ text, Config.parse text = .ok patient ∧
    ∃ pool limits report, Pool.ofConfig patient 0 = .ok pool ∧
      PoolConfig.ofSettings? patient.pool = .ok limits ∧
      (run pool ⟨3, 2, 5, 2⟩).finished = true ∧
      Commands.simulate (.ok text) ⟨3, 2, 5, 2⟩ = .ok report ∧
      report.stats.claimedOverdue = 0 ∧
      report.stats.requests * 5 ≤ limits.maxActive * report.elapsedMillis := by
  obtain ⟨text, -, hparse⟩ := Config.parse_of_writable patient_valid rfl
  obtain ⟨pool, limits, report, hpool, hlimits, hfinished, hreport, hbound⟩ :=
    throughput_within_slots hparse rfl ⟨3, 2, 5, 2⟩
  obtain ⟨source, limits', hlimits', -, hpool'⟩ := Config.resolves patient_valid
  obtain rfl := Except.ok.inj (hpool'.symm.trans hpool)
  have hcheckout : limits.maxCheckoutTime = .ofSecs 20 := by
    have hknown : (PoolConfig.ofSettings? patient.pool).map (·.maxCheckoutTime) =
        .ok (.ofSecs 20) := rfl
    rw [hlimits] at hknown
    exact Except.ok.inj hknown
  have helapsed := elapsed_run source ⟨3, 2, 5, 2⟩ (Config.budget_of_parse hparse hlimits')
  refine ⟨text, hparse, _, limits, report, hpool, hlimits, hfinished, hreport, hbound ?_ ?_⟩
  · rw [hcheckout]
    decide
  · exact Nat.lt_of_le_of_lt helapsed (by decide)

end Simulation

end ConnPool
