/-
  What the events of a rehearsal leave in the books of a pool.

  A pass reclaims, throws away and hands out (`Machine.PassCounts`), and a return takes something back or
  nothing.  Two balances follow.  More handles are held than connections are out only since some were
  reclaimed (`InRehearsal.handles_le`); and when nothing is probed, every handle that has lost its
  connection, and nothing else, comes back as one bad connection (`InRehearsal.balance`).

  Over a driver in memory all events of a rehearsal keep the stock of the driver (`InRehearsal.stocked`).
-/
import ConnPool.Proofs.Simulation.Schedule
import ConnPool.Proofs.Simulation.Stock

namespace ConnPool

open Machine (length_without)

variable {σ : Type}

namespace Machine

/-! ## What a pass counts -/

/-- What the pass of an event did to the active list and to the counters of a machine. -/
structure PassCounts (m : Machine σ) (o : Outcome) (m' : Machine σ) (taken rest bad : List Wrapper) :
    Prop where
  before : m.world.pool.active = taken ++ rest
  overdue : ∀ d ∈ taken, m.world.pool.config.maxCheckoutTime < m.world.now - d.checkoutAt
  acquired : ∀ h, o = .acquired h → ∃ c, m'.world.pool.active = rest ++ [c] ∧ c.handle = h
  otherwise : (∀ h, o ≠ .acquired h) → m'.world.pool.active = rest
  requests : m'.world.pool.counters.requests =
    m.world.pool.counters.requests + o.handle?.toList.length
  claimedOverdue : m'.world.pool.counters.claimedOverdue =
    m.world.pool.counters.claimedOverdue + taken.length
  badConnections : m'.world.pool.counters.badConnections =
    m.world.pool.counters.badConnections + bad.length

theorem tallyOfOutcome_counts (now : Instant) (a : Acquisition) (o : Outcome) :
    (tallyOfOutcome now a o).requests = o.handle?.toList.length ∧
      (tallyOfOutcome now a o).claimedOverdue = 0 ∧
      (tallyOfOutcome now a o).badConnections = 0 := by
  cases o <;> exact ⟨rfl, rfl, rfl⟩

section Pass

variable (D : Drivers σ) {m m₀ : Machine σ} {e : Event σ} {key : Key} {a : Acquisition}
  {config : PoolConfig}

theorem passCounts_of_pass (huse : m.InUse config) (hpass : m.pass? e = some (m₀, key, a)) :
    ∃ taken rest, m.PassCounts (m.step D e).1 (m.step D e).2 taken rest (m₀.rejectsOf D a) := by
  obtain ⟨-, -, t, hworld⟩ := pass?_before hpass
  obtain ⟨taken, rest, h⟩ := pass_tally D m₀ key a
  have hbefore := h.before
  have hoverdue := h.overdue
  have hcounters := h.counters
  rw [hworld] at hbefore hoverdue hcounters
  rw [step_of_pass D huse hpass]
  refine ⟨taken, rest, hbefore, hoverdue, fun hd he => ?_, h.otherwise, ?_, ?_, ?_⟩
  · obtain ⟨c, hc, hch, -⟩ := h.acquired hd he
    exact ⟨c, hc, hch⟩
  all_goals
    obtain ⟨hrequests, hclaimed, hbad⟩ := tallyOfOutcome_counts
      (m.world.onPool (·.count fun k => { k with waitTime := t })).now a (m₀.pass D key a).1
    rw [hcounters]
    simp only [Counters.add_def, tallyOfReclaims, tallyOfBad, World.onPool_pool, hrequests, hclaimed,
      hbad, Nat.zero_add, Nat.add_zero]
    rfl

/-- A pass leaves handles that are held in balance with connections that are out or were reclaimed. -/
theorem balance_of_pass (huse : m.InUse config) (hpass : m.pass? e = some (m₀, key, a)) :
    (m.step D e).2.handles.length + m.world.pool.active.length +
        m.world.pool.counters.claimedOverdue =
      m.handles.length + (m.step D e).2.world.pool.active.length +
        (m.step D e).2.world.pool.counters.claimedOverdue := by
  obtain ⟨taken, rest, h⟩ := passCounts_of_pass D huse hpass
  have hserved := (served_of_pass D huse hpass).1
  have hactive := congrArg List.length h.before
  rw [List.length_append] at hactive
  rw [h.claimedOverdue]
  generalize (m.step D e).1 = o at h hserved
  generalize (m.step D e).2 = m' at h hserved ⊢
  cases hserved with
  | acquired _ handles _ =>
    obtain ⟨c, hc, -⟩ := h.acquired _ rfl
    rw [handles, hc, List.length_append, List.length_append, List.length_singleton,
      List.length_singleton]
    omega
  | waits _ handles | refused _ handles =>
    rw [handles, h.otherwise nofun]
    omega

end Pass

/-! ## What a return counts -/

section Return

variable (D : Drivers σ) {m : Machine σ} {key : Key} {h : Handle} {config : PoolConfig}

/-- A return gives a handle back, and takes back a connection at most. -/
theorem balance_of_release (huse : m.InUse config) (hkeyed : m.Keyed)
    (hk : m.handle? key = some h) :
    (m.step D (.release key)).2.handles.length + 1 = m.handles.length ∧
      (m.step D (.release key)).2.world.pool.counters.claimedOverdue =
        m.world.pool.counters.claimedOverdue ∧
      (m.step D (.release key)).2.world.pool.counters.requests =
        m.world.pool.counters.requests ∧
      m.world.pool.active.length ≤
        (m.step D (.release key)).2.world.pool.active.length + 1 := by
  rw [step_release D huse hk]
  refine ⟨length_without hkeyed.handles (List.mem_map_of_mem (mem_of_lookup hk)), ?_⟩
  show (m.world.checkIn D h.id).pool.counters.claimedOverdue = _ ∧
    (m.world.checkIn D h.id).pool.counters.requests = _ ∧
    _ ≤ (m.world.checkIn D h.id).pool.active.length + 1
  rcases m.world.checkIn_tally D h.id with ⟨-, ha, hc⟩ | ⟨c, front, back, ha, -, ha', hc⟩
  · rw [ha, hc]
    exact ⟨rfl, rfl, Nat.le_succ _⟩
  · rw [ha, ha', hc, List.length_append, List.length_append, List.length_cons, World.tallyOfReturn]
    refine ⟨?_, ?_, by omega⟩
    all_goals split <;> rfl

end Return

/-! ## What a use comes to -/

/-- A call through a valid handle is the call on its connection, and refused if that fails. -/
theorem use_valid (D : Drivers σ) {m : Machine σ} {key : Key} {h : Handle}
    (hk : m.handle? key = some h) (hvalid : h.id ∈ m.world.pool.valid) (call : RawCall) :
    (m.use D key call).2.world = (m.world.run (D.call h.conn call)).2 ∧
      ((m.use D key call).1.isRefused = false ↔
        ∃ a, (D.call h.conn call m.world.drivers).1 = .ok a) := by
  have hmember : m.world.pool.valid.contains h.id = true := List.contains_iff_mem.2 hvalid
  rcases hr : m.world.run (D.call h.conn call) with ⟨r, w⟩
  have hanswer : (D.call h.conn call m.world.drivers).1 = r := congrArg Prod.fst hr
  rw [hanswer]
  cases r with
  | ok a =>
    simp only [use, hk, hmember, if_true, hr]
    exact ⟨trivial, fun _ => ⟨a, rfl⟩, fun _ => rfl⟩
  | error err =>
    simp only [use, hk, hmember, if_true, hr]
    refine ⟨trivial, fun hrefused => ?_, fun hanswered => ?_⟩
    · cases hrefused
    · obtain ⟨a, ha⟩ := hanswered
      cases ha

/-! ## Every event -/

section Events

variable {D : Drivers σ} {m : Machine σ} {e : Event σ} {config : PoolConfig}

/-- What an event of a rehearsal comes to: nothing, a pass, a statement, a return, or time. -/
theorem rehearsed_cases (huse : m.InUse config) (he : e.Rehearsed) :
    (m.step D e).2 = m ∨
    (∃ m₀ key a, m.pass? e = some (m₀, key, a)) ∨
    (∃ conn statement, (m.step D e).2 =
      m.onWorld fun w => (w.run (D.call conn (.execute statement))).2) ∨
    (∃ key h, m.handle? key = some h ∧ e = .release key) ∨
    (∃ d, (m.step D e).2 = m.onWorld fun w => { w with now := w.now + d }) := by
  cases he with
  | acquire key who =>
    by_cases hadmits : m.admits (.acquire key who : Event σ) = true
    · exact Or.inr (Or.inl ⟨_, _, _, pass?_acquire hadmits⟩)
    · refine Or.inl ?_
      rw [step, if_neg hadmits]
  | resume key =>
    cases hpass : m.pass? (.resume key : Event σ) with
    | some p => exact Or.inr (Or.inl ⟨p.1, p.2.1, p.2.2, rfl⟩)
    | none =>
      obtain ⟨o, e, -⟩ := resume_of_pass?_eq_none D hpass
      refine Or.inl ?_
      rw [huse.step_eq D (.resume key) rfl]
      exact congrArg Prod.snd e
  | execute key statement =>
    rw [huse.step_eq D (.execute key statement) rfl]
    rcases m.use_cases D key (.execute statement) with ⟨-, e⟩ | ⟨h, -, -, e⟩ | ⟨h, o, -, -, e, -⟩
    · exact Or.inl (congrArg Prod.snd e)
    · exact Or.inl (congrArg Prod.snd e)
    · exact Or.inr (Or.inr (Or.inl ⟨h.conn, statement, congrArg Prod.snd e⟩))
  | release key =>
    rcases m.release_cases D key with ⟨-, e⟩ | ⟨h, hk, -⟩
    · refine Or.inl ?_
      rw [huse.step_eq D (.release key) rfl]
      exact e
    · exact Or.inr (Or.inr (Or.inr (Or.inl ⟨key, h, hk, rfl⟩)))
  | advance d => exact Or.inr (Or.inr (Or.inr (Or.inr ⟨d, step_advance D huse d⟩)))

end Events

namespace InRehearsal

variable {D : Drivers σ} {source : Source} {config : PoolConfig} {s : σ} {m : Machine σ}

/-- A property of machines in use that holds at the start and survives what their users do. -/
theorem induct {I : Machine σ → Prop} (h : InRehearsal D source config s m)
    (start : I (.start (.new source config) s))
    (pass : ∀ {m e m₀ key a}, InRehearsal D source config s m →
      m.pass? e = some (m₀, key, a) → I m → I (m.step D e).2)
    (execute : ∀ {m : Machine σ} conn statement, InRehearsal D source config s m → I m →
      I (m.onWorld fun w => (w.run (D.call conn (.execute statement))).2))
    (release : ∀ {m key h}, InRehearsal D source config s m → m.handle? key = some h → I m →
      I (m.step D (.release key)).2)
    (advance : ∀ {m : Machine σ} d, InRehearsal D source config s m → I m →
      I (m.onWorld fun w => { w with now := w.now + d })) : I m := by
  suffices hall : InRehearsal D source config s m ∧ I m from hall.2
  refine h.rule (I := fun m => InRehearsal D source config s m ∧ I m) ⟨.start h.1, start⟩ ?_
  rintro m e he ⟨hm, hI⟩
  refine ⟨hm.step he, ?_⟩
  rcases rehearsed_cases (D := D) hm.inUse he with e' | ⟨m₀, key, a, hpass⟩ | ⟨conn, statement, e'⟩ |
    ⟨key, h, hk, rfl⟩ | ⟨d, e'⟩
  · rw [e']
    exact hI
  · exact pass hm hpass hI
  · rw [e']
    exact execute conn statement hm hI
  · exact release hm hk hI
  · rw [e']
    exact advance d hm hI

/-- **Handles in balance**: more of them are held than connections are out only since some were
    reclaimed. -/
theorem handles_le (h : InRehearsal D source config s m) :
    m.handles.length ≤ m.world.pool.active.length + m.world.pool.counters.claimedOverdue := by
  refine h.induct (I := fun m => m.handles.length ≤
      m.world.pool.active.length + m.world.pool.counters.claimedOverdue)
    (Nat.zero_le _) (fun hm hpass hI => ?_) (fun _ _ _ hI => hI) (fun hm hk hI => ?_)
    (fun _ _ hI => hI)
  · have hbalance := balance_of_pass D hm.inUse hpass
    omega
  · obtain ⟨hhandles, hclaimed, -, hactive⟩ := balance_of_release D hm.inUse hm.sound.keyed hk
    omega

end InRehearsal

/-! ## Rounds -/

section Rounds

variable {D : Drivers σ} {R : World σ → List Wrapper → Prop} {m m₀ : Machine σ} {e : Event σ}
  {key : Key} {a : Acquisition} {h : Handle} {config : PoolConfig}

/-- What goes its rounds survives an event that makes a pass. -/
theorem pass_rounds (hR : World.Rounds D R) (huse : m.InUse config)
    (hpass : m.pass? e = some (m₀, key, a)) (hm : R m.world m.world.pool.wrappers) :
    R (m.step D e).2.world (m.step D e).2.world.pool.wrappers := by
  obtain ⟨-, -, t, hworld⟩ := pass?_before hpass
  have hm₀ : R m₀.world m₀.world.pool.wrappers := by
    rw [hworld]
    exact hR.count _ hm
  rw [step_of_pass D huse hpass]
  rcases m₀.pass_cases D key a with ⟨-, e⟩ | ⟨-, budget, ⟨h, w, ht, e⟩ | ⟨err, w, ht, e⟩ |
    ⟨r, w, f, ht, e⟩ | ⟨w, ht, e⟩⟩
  · rw [e]
    exact hm₀
  all_goals
    have hafter := hR.tryOut a.who a.startedAt budget a.rejected hm₀
    rw [ht] at hafter
    rw [e]
  · exact hafter
  · exact hafter
  · exact hR.count f hafter
  · exact hafter

/-- What goes its rounds survives a return. -/
theorem release_rounds (hR : World.Rounds D R) (huse : m.InUse config)
    (hk : m.handle? key = some h) (hm : R m.world m.world.pool.wrappers) :
    R (m.step D (.release key)).2.world (m.step D (.release key)).2.world.pool.wrappers := by
  rw [step_release D huse hk]
  exact hR.checkIn h.id hm

end Rounds

/-! ## The end -/

section End

variable {D : Drivers σ} {m : Machine σ} {config : PoolConfig}

/-- While nobody holds a handle no connection is out. -/
theorem Held.active_eq_nil (h : m.Held) (hhandles : m.handles = []) : m.world.pool.active = [] := by
  refine List.eq_nil_iff_forall_not_mem.2 fun c hc => ?_
  obtain ⟨key, hkey⟩ := h c hc
  rw [hhandles] at hkey
  nomatch hkey

/-- A shutdown that finds nobody waiting and nothing out is over at once. -/
theorem step_shutDown (huse : m.InUse config) (hheld : m.Held) (hwaiters : m.waiters = [])
    (hhandles : m.handles = []) (key : Key) :
    (m.step D (.shutDown key)).1 = .shutDown 0 ∧ (m.step D (.shutDown key)).2.world =
      (m.world.onPool fun p => { p with closed := true }).invalidateAll D := by
  have hadmits : m.admits (.shutDown key : Event σ) = true := by
    rw [admits, Bool.and_eq_true]
    refine ⟨huse.held, isFree_iff.2 ?_⟩
    rw [keys, hwaiters, huse.drains, hhandles]
    exact List.not_mem_nil
  have hlook : m.shutDown D key = (.shutDown 0,
      ((m.onWorld (·.onPool fun p => { p with closed := true })).wakeAll).onWorld
        (·.invalidateAll D)) := by
    have hout : ((m.onWorld (·.onPool fun p => { p with closed := true })).wakeAll).world.pool.active =
        [] := hheld.active_eq_nil hhandles
    simp only [shutDown, lookAt, hout, List.length_nil, true_or, if_true]
  rw [step, if_pos hadmits]
  show (m.shutDown D key).1 = _ ∧ ((m.shutDown D key).2.settle D).world = _
  rw [hlook]
  refine ⟨rfl, ?_⟩
  rw [settle_of_held D]
  · rfl
  · exact huse.held

end End

/-! ## A pool over a driver in memory -/

section Memory

variable {source : Source} {config : PoolConfig} {k : Nat} {m m₀ : Machine Memory}
  {e : Event Memory} {key : Key} {a : Acquisition}

/-- **In a rehearsal what is open is what the pool has.** -/
theorem InRehearsal.stocked (h : InRehearsal Memory.drivers source config { failEvery := k } m) :
    m.world.Stocked k m.world.pool.wrappers := by
  have hR := (World.stocked_ledger k).rounds
  refine h.induct (World.stocked_start source config k)
    (fun hm hpass hI => pass_rounds hR hm.inUse hpass hI) (fun conn statement _ hI => ?_)
    (fun hm hk hI => release_rounds hR hm.inUse hk hI) (fun _ _ hI => ⟨hI.drivers, hI.once⟩)
  exact ⟨(hI.drivers.execute conn statement).1, hI.once⟩

/-- **A shutdown that finds nothing out closes everything.** -/
theorem InRehearsal.closed (h : InRehearsal Memory.drivers source config { failEvery := k } m)
    (hwaiters : m.waiters = []) (hhandles : m.handles = []) (key : Key) :
    ∀ c ∈ (m.step Memory.drivers (.shutDown key)).2.world.drivers.conns, c.closed = true := by
  have hshut : (m.world.onPool fun p => { p with closed := true }).Stocked k
      (m.world.onPool fun p => { p with closed := true }).pool.wrappers :=
    ⟨h.stocked.drivers, h.stocked.once⟩
  have hempty := (World.stocked_ledger k).rounds.invalidateAll hshut
  have hnone : ((m.world.onPool fun p => { p with closed := true }).invalidateAll
      Memory.drivers).pool.wrappers = [] := by
    rw [World.invalidateAll_pool]
    rfl
  rw [hnone] at hempty
  rw [(step_shutDown h.inUse h.sound.held hwaiters hhandles key).2]
  exact hempty.drivers.allClosed fun _ => List.not_mem_nil

/-- **Without probes nobody is refused a connection**, and no connection is thrown away. -/
theorem InRehearsal.unprobed_pass
    (h : InRehearsal Memory.drivers source config { failEvery := k } m)
    (hping : config.pingEnabled = false) (hactive : 0 < config.maxActive)
    (hpass : m.pass? e = some (m₀, key, a)) :
    (∀ err, (m.step Memory.drivers e).1 ≠ .refused err) ∧ m₀.rejectsOf Memory.drivers a = [] := by
  obtain ⟨-, -, t, hworld⟩ := pass?_before hpass
  obtain ⟨os, howned⟩ := h.sound.owned
  have hclosed : m₀.world.pool.closed = false := by
    rw [hworld]
    exact h.inUse.closed
  have hsmooth : ∀ budget, (∀ err, (m₀.world.tryOut Memory.drivers a.who a.startedAt budget
      a.rejected).1 ≠ .failed err) ∧ m₀.world.rejects Memory.drivers a.who budget = [] := by
    have hconfig := h.inUse.config
    rw [hworld]
    have hR := (World.roster_ledger Memory.drivers).rounds
    exact fun budget => World.Stocked.pass ((World.stocked_ledger k).rounds.count _ h.stocked)
      (hR.count _ howned.roster) (hconfig ▸ hping) (hconfig ▸ hactive) a.who a.startedAt budget
      a.rejected
  rw [step_of_pass _ h.inUse hpass]
  constructor
  · intro err
    rcases m₀.pass_cases Memory.drivers key a with ⟨hc, -⟩ | ⟨-, budget, ⟨hd, w, ht, e⟩ |
      ⟨err', w, ht, -⟩ | ⟨r, w, f, ht, e⟩ | ⟨w, ht, e⟩⟩
    · nomatch hclosed.symm.trans hc
    · rw [e]
      exact nofun
    · exact absurd (congrArg Prod.fst ht) ((hsmooth budget).1 err')
    · rw [e]
      exact nofun
    · rw [e]
      exact nofun
  · rw [rejectsOf, if_neg (by rw [hclosed]; exact Bool.false_ne_true)]
    exact (hsmooth _).2

/-- **Without probes the bad connections are the handles that have lost theirs**, when all of them have
    come back. -/
theorem InRehearsal.balance (h : InRehearsal Memory.drivers source config { failEvery := k } m)
    (hping : config.pingEnabled = false) (hactive : 0 < config.maxActive) :
    m.handles.length + m.world.pool.counters.badConnections =
      m.world.pool.active.length + m.world.pool.counters.claimedOverdue := by
  refine h.induct (I := fun m => m.handles.length + m.world.pool.counters.badConnections =
      m.world.pool.active.length + m.world.pool.counters.claimedOverdue)
    rfl (fun hm hpass hI => ?_) (fun _ _ _ hI => hI) (fun {m key hd} hm hk hI => ?_)
    (fun _ _ hI => hI)
  · have hbalance := balance_of_pass Memory.drivers hm.inUse hpass
    obtain ⟨taken, rest, hcounts⟩ := passCounts_of_pass Memory.drivers hm.inUse hpass
    have hbad := hcounts.badConnections
    rw [(hm.unprobed_pass hping hactive hpass).2] at hbad
    simp only [List.length_nil, Nat.add_zero] at hbad
    omega
  · obtain ⟨hhandles, hclaimed, -, -⟩ :=
      balance_of_release Memory.drivers hm.inUse hm.sound.keyed hk
    obtain ⟨os, howned⟩ := hm.sound.owned
    have hback := hm.stocked.checkIn howned.roster (hm.inUse.config ▸ hping) hd.id
    have hworld : (m.step Memory.drivers (.release key)).2.world =
        m.world.checkIn Memory.drivers hd.id := by
      rw [step_release _ hm.inUse hk]
      rfl
    rw [← hworld] at hback
    omega

/-- **A statement through a handle** whose connection is out is counted, and fails if it is its turn. -/
theorem InRehearsal.executed (h : InRehearsal Memory.drivers source config { failEvery := k } m)
    {hd : Handle} (hk : m.handle? key = some hd) (hout : ∃ c ∈ m.world.pool.active, c.handle = hd)
    (statement : String) :
    (m.step Memory.drivers (.use key (.execute statement))).2.world.drivers.statements =
        m.world.drivers.statements + 1 ∧
      ((m.step Memory.drivers (.use key (.execute statement))).1.isRefused = true ↔
        0 < k ∧ (m.world.drivers.statements + 1) % k = 0) := by
  obtain ⟨c, hc, rfl⟩ := hout
  obtain ⟨os, howned⟩ := h.sound.owned
  have hvalid : c.id ∈ m.world.pool.valid :=
    (howned.valid_iff (mem_of_lookup hk)).2 ⟨c, hc, rfl⟩
  have hopen : c.conn.ticket ∈ m.world.pool.wrappers.map (·.conn.ticket) :=
    List.mem_map_of_mem (List.mem_append_left _ hc)
  obtain ⟨hcount, hturn⟩ := (h.stocked.drivers.execute c.conn statement).2 hopen
  obtain ⟨hworld, hrefused⟩ := use_valid Memory.drivers hk hvalid (.execute statement)
  rw [h.inUse.step_eq Memory.drivers (.execute key statement) rfl]
  refine ⟨(congrArg (·.drivers.statements) hworld).trans hcount, ?_⟩
  show (m.use Memory.drivers key (.execute statement)).1.isRefused = true ↔ _
  rw [← not_iff_not, ← hturn, Bool.not_eq_true, hrefused]
  exact ⟨fun ⟨_, ha⟩ => ha, fun hok => ⟨(), hok⟩⟩

end Memory

end Machine

/-! ## The parts of a move -/

namespace Simulation

/-- What the pool has counted so far. -/
abbrev counters (s : Simulation) : Counters :=
  s.machine.world.pool.counters

section Parts

variable {source : Source} {config : PoolConfig} {load : Workload} {x : Stage} {w : Nat}
  {o : Outcome} {s : Simulation}

theorem work_pool (huse : s.machine.InUse config) (w : Nat) :
    (s.work w).machine.world.pool = s.machine.world.pool := by
  obtain ⟨d, hstep⟩ := Machine.step_use Memory.drivers huse w statement
  rw [work_eq]
  simp only [hstep]
  rfl

theorem work_counters (huse : s.machine.InUse config) (w : Nat) :
    (s.work w).counters = s.counters :=
  congrArg Pool.counters (work_pool huse w)

/-- A return that gives something back counts neither requests nor reclaims. -/
theorem release_counters {memory : Memory} {hd : Handle}
    (h : Machine.InRehearsal Memory.drivers source config memory s.machine)
    (hk : s.machine.handle? w = some hd) :
    (s.release w).counters.requests = s.counters.requests ∧
      (s.release w).counters.claimedOverdue = s.counters.claimedOverdue := by
  obtain ⟨-, hclaimed, hrequests, -⟩ :=
    Machine.balance_of_release Memory.drivers h.inUse h.sound.keyed hk
  exact ⟨hrequests, hclaimed⟩

/-- What a request has counted. -/
theorem Asked.counts (h : Asked source config load x w o s) (hx : Orderly source config load x) :
    ∃ taken rest bad, x.2.machine.PassCounts o s.machine taken rest bad := by
  obtain ⟨e, m₀, a, hpass, hstep⟩ := h.passes
  obtain ⟨taken, rest, hcounts⟩ :=
    Machine.passCounts_of_pass Memory.drivers hx.rehearsal.inUse hpass
  rw [hstep] at hcounts
  exact ⟨taken, rest, _, hcounts⟩

/-- A worker that was handed a connection has it in its handle, and on the active list. -/
theorem Asked.holder {hd : Handle} (h : Asked source config load x w (.acquired hd) s)
    (hx : Orderly source config load x) : s.machine.handle? w = some hd ∧
      ∃ c ∈ s.machine.world.pool.active, c.handle = hd := by
  obtain ⟨taken, rest, bad, hcounts⟩ := h.counts hx
  obtain ⟨c, hc, hch⟩ := hcounts.acquired hd rfl
  refine ⟨?_, c, hc ▸ List.mem_append_right _ List.mem_cons_self, hch⟩
  cases h.served with
  | acquired waiters handles stamp =>
    exact Machine.lookup_of_mem h.rehearsal.sound.keyed.handles
      (handles ▸ List.mem_append_right _ List.mem_cons_self)

/-- The handle of a worker that has run its statement. -/
theorem Asked.works {hd : Handle} (h : Asked source config load x w (.acquired hd) s)
    (hx : Orderly source config load x) : (s.work w).machine.handle? w = some hd := by
  have hplaces := work_places h.rehearsal.inUse w
  have hhandles : (s.work w).machine.handles = s.machine.handles := congrArg Places.handles hplaces
  rw [Machine.handle?, hhandles]
  exact (h.holder hx).1

/-- Only a connection that is handed out is counted as a request. -/
theorem Asked.requests (h : Asked source config load x w o s) (hx : Orderly source config load x) :
    s.counters.requests = x.2.counters.requests + o.handle?.toList.length := by
  obtain ⟨taken, rest, bad, hcounts⟩ := h.counts hx
  exact hcounts.requests

end Parts

end Simulation

end ConnPool
