/-
  A rehearsal keeps its order.

  `Orderly` collects what is known of every stage of a rehearsal: its machine belongs to one, its places
  are sensible, and somebody holds a connection as long as somebody waits who is not in the queue.  The
  last holds since a return puts all who wait into the queue, and nobody begins to wait unless a
  connection is out.

  In an orderly stage every request makes a pass (`Orderly.asked`); what the request comes to, and what
  the worker does then, leaves the stage orderly.  So every move keeps the order (`Move.orderly`), and
  whatever else the moves of orderly stages preserve holds after any number of turns (`runFor_rule`).
-/
import ConnPool.Proofs.Simulation.Moves
import ConnPool.Proofs.Simulation.Places
import Mathlib.Algebra.GroupWithZero.Nat

namespace ConnPool

open Machine (without mem_without without_eq_self without_append_self)

namespace Simulation

/-- Where the workers of a rehearsal are. -/
def places (s : Simulation) : Places where
  now := s.machine.world.now
  queue := s.queue
  timers := s.timers
  remaining := s.remaining
  waiters := s.machine.waiters
  handles := s.machine.handles

/-! ## What the parts of a move do to the places -/

section Parts

variable {s : Simulation} {w : Nat} {source : Source} {config : PoolConfig} {memory : Memory}

theorem work_places (huse : s.machine.InUse config) (w : Nat) : (s.work w).places = s.places := by
  obtain ⟨d, hstep⟩ := Machine.step_use Memory.drivers huse w statement
  rw [work_eq]
  simp only [places, hstep]
  rfl

theorem hold_places (s : Simulation) (w : Nat) : (s.hold w).places = { s.places with
    timers := s.places.timers ++ [(w, s.places.now + .ofMillis s.load.holdMillis)] } := rfl

theorem await_places (s : Simulation) (w : Nat) : (s.await w).places = { s.places with
    timers := s.places.timers ++
      (((s.machine.waiter? w).bind Waiter.deadline?).map fun d => (w, d)).toList } := by
  rw [await_eq]
  rfl

/-- A statement leaves a machine of a rehearsal. -/
theorem work_rehearsal
    (h : Machine.InRehearsal Memory.drivers source config memory s.machine) (w : Nat) :
    Machine.InRehearsal Memory.drivers source config memory (s.work w).machine := by
  rw [work_eq]
  exact h.step (.execute w statement)

theorem release_places (huse : s.machine.InUse config) {h : Handle}
    (hk : s.machine.handle? w = some h) : (s.release w).places =
      { s.places with handles := without w s.machine.handles }.wake := by
  have hstep := Machine.step_release Memory.drivers huse hk
  have hnow := s.machine.world.checkIn_now Memory.drivers h.id
  simp only [places, release, event, hstep, Machine.wakeAll, hnow]
  rfl

theorem tick_places (huse : s.machine.InUse config) :
    s.tick.places = s.places.tickTo (s.machine.world.now + .ofMillis 1) := by
  have hstep := Machine.step_advance Memory.drivers huse (.ofMillis 1)
  simp only [places, tick, event, hstep, List.partition_eq_filter_filter]
  rfl

end Parts

/-! ## Orderly stages -/

/-- What is known of every stage of a rehearsal. -/
structure Orderly (source : Source) (config : PoolConfig) (load : Workload) (x : Stage) : Prop where
  rehearsal : Machine.InRehearsal Memory.drivers source config { failEvery := load.failEvery }
    x.2.machine
  workload : x.2.load = load
  tasks : x.2.remaining.length = load.tasks
  sensible : x.2.places.Sensible (.ofMillis load.holdMillis) x.1
  /-- While somebody waits who is not in the queue, somebody holds a connection. -/
  attended : ∀ w ∈ x.2.machine.waiters.map (·.1), w ∉ x.2.queue → x.2.machine.handles ≠ []

/-- What a request has come to, when the stage before was orderly. -/
structure Asked (source : Source) (config : PoolConfig) (load : Workload) (x : Stage) (w : Nat)
    (o : Outcome) (s : Simulation) : Prop where
  rehearsal : Machine.InRehearsal Memory.drivers source config { failEvery := load.failEvery }
    s.machine
  passes : ∃ e m₀ a, x.2.machine.pass? e = some (m₀, w, a) ∧
    x.2.machine.step Memory.drivers e = (o, s.machine)
  served : x.2.machine.Served w o s.machine
  now : s.machine.world.now = x.2.machine.world.now
  workload : s.load = load
  tasks : s.remaining.length = load.tasks
  queue : x.1.toList ++ x.2.queue = w :: s.queue
  /-- The places but for what the request has changed: the worker has the turn, and waits no more. -/
  sensible : { s.places with
    waiters := without w x.2.machine.waiters
    handles := x.2.machine.handles }.Sensible (.ofMillis load.holdMillis) (some w)
  left : s.remaining.sum + (without w x.2.machine.waiters).length + 1 =
    x.2.remaining.sum + x.2.machine.waiters.length
  acquireFailures : s.acquireFailures = x.2.acquireFailures
  statementFailures : s.statementFailures = x.2.statementFailures

section Stages

variable {source : Source} {config : PoolConfig} {load : Workload} {x y : Stage} {w : Nat}
  {o : Outcome} {s : Simulation}

/-- An iteration fewer is left. -/
theorem sum_set {l : List Nat} {n : Nat} (h : l[w]? = some (n + 1)) :
    (l.set w n).sum + 1 = l.sum := by
  induction l generalizing w with
  | nil => nomatch h
  | cons k l ih =>
    cases w with
    | zero =>
      obtain rfl := Option.some.inj h
      rw [List.set_cons_zero, List.sum_cons, List.sum_cons]
      omega
    | succ w =>
      rw [List.set_cons_succ, List.sum_cons, List.sum_cons, ← ih h]
      omega

/-- Every request of an orderly stage makes a pass. -/
theorem Orderly.asked (h : Orderly source config load x) (hasks : Asks x w (o, s)) :
    Asked source config load x w o s := by
  generalize hout : (o, s) = out at hasks
  have hrehearsal := h.rehearsal
  have huse := hrehearsal.inUse
  have hkeyed := hrehearsal.sound.keyed
  have hsensible := h.sensible
  cases hasks with
  | @anew s₀ _ n left =>
    obtain ⟨rfl, rfl⟩ := Prod.mk.inj hout
    have hfree := hsensible.free w rfl
    have hadmits : s₀.machine.admits (.acquire w none : Event Memory) = true := by
      rw [Machine.admits, Bool.and_eq_true]
      refine ⟨huse.held, Machine.isFree_iff.2 ?_⟩
      rw [Machine.keys, huse.drains]
      exact hfree
    have hpass := Machine.pass?_acquire (σ := Memory) hadmits
    obtain ⟨hserved, hnow⟩ := Machine.served_of_pass Memory.drivers huse hpass
    have hwaiters : without w s₀.machine.waiters = s₀.machine.waiters :=
      without_eq_self fun hw => hfree (List.mem_append_left _ hw)
    refine ⟨hrehearsal.step (.acquire w none), ⟨_, _, _, hpass, rfl⟩, hserved, hnow, h.workload,
      ?_, rfl, ?_, ?_, rfl, rfl⟩
    · rw [← h.tasks]
      exact List.length_set
    · have hleaves := hsensible.leaves n
      rw [hwaiters]
      rw [places] at hleaves ⊢
      rw [← hnow] at hleaves
      exact hleaves
    · have hsum := sum_set left
      rw [hwaiters]
      show (s₀.remaining.set w n).sum + s₀.machine.waiters.length + 1 =
        s₀.remaining.sum + s₀.machine.waiters.length
      omega
  | @again s₀ _ rest next holds waits =>
    obtain ⟨rfl, rfl⟩ := Prod.mk.inj hout
    obtain ⟨p, hp⟩ := Option.isSome_iff_exists.1 waits
    have hmem := Machine.mem_of_lookup hp
    have hdue : p.due s₀.machine.world.now = true := by
      refine hsensible.queued (w, p) hmem ?_
      show w ∈ s₀.queue
      rw [next]
      exact List.mem_cons_self
    have hpass : s₀.machine.pass? (.resume w : Event Memory) =
        some (s₀.machine.recalled w p, w, p.acquisition) := by
      simp only [Machine.pass?, hp, hdue, if_true]
    obtain ⟨hserved, hnow⟩ := Machine.served_of_pass Memory.drivers huse hpass
    have hhandles : without w s₀.machine.handles = s₀.machine.handles :=
      without_eq_self (Machine.lookup_eq_none_iff_not_mem.1 holds)
    refine ⟨hrehearsal.step (.resume w), ⟨_, _, _, hpass, rfl⟩, hserved, hnow, h.workload, h.tasks,
      next, ?_, ?_, rfl, rfl⟩
    · have hcalls := hsensible.calls next
      rw [places] at hcalls ⊢
      rw [← hnow] at hcalls
      simp only [hhandles] at hcalls
      exact hcalls
    · have hlength : (without w s₀.machine.waiters).length + 1 = s₀.machine.waiters.length :=
        Machine.length_without hkeyed.waiters (List.mem_map_of_mem hmem)
      show s₀.remaining.sum + (without w s₀.machine.waiters).length + 1 =
        s₀.remaining.sum + s₀.machine.waiters.length
      omega

/-- Whoever has to wait longer than the request takes leaves somebody holding a connection. -/
theorem Asked.attended (h : Asked source config load x w o s) (hx : Orderly source config load x) :
    ∀ v ∈ (without w x.2.machine.waiters).map (·.1), v ∉ s.queue → x.2.machine.handles ≠ [] := by
  intro v hv hnot
  obtain ⟨e, he, rfl⟩ := List.mem_map.1 hv
  obtain ⟨hmem, hne⟩ := mem_without.1 he
  refine hx.attended e.1 (List.mem_map_of_mem hmem) fun hin => ?_
  have hin' : e.1 ∈ w :: s.queue := h.queue ▸ List.mem_append_right _ hin
  exact (List.mem_cons.1 hin').elim hne hnot

/-- A return puts all who wait into the queue. -/
theorem attended_release (huse : s.machine.InUse config) {hd : Handle}
    (hk : s.machine.handle? w = some hd) {v : Nat}
    (hv : v ∈ (s.release w).machine.waiters.map (·.1)) : v ∈ (s.release w).queue := by
  have hplaces := release_places huse hk
  have hqueue : (s.release w).queue = (s.release w).places.queue := rfl
  have hwaiters : (s.release w).machine.waiters = (s.release w).places.waiters := rfl
  rw [hwaiters, hplaces] at hv
  rw [hqueue, hplaces]
  exact Places.Sensible.queued_of_wake hv

/-- A worker that does not wait and holds nothing takes the turn. -/
theorem Orderly.starts {rest : List Nat} (hx : Orderly source config load (none, s))
    (next : s.queue = w :: rest) (holds : s.machine.handle? w = none)
    (waits : s.machine.waiter? w = none) :
    Orderly source config load (some w, { s with queue := rest }) := by
  have hcalls := hx.sensible.calls next
  have hwaiters : without w s.machine.waiters = s.machine.waiters :=
    without_eq_self (Machine.lookup_eq_none_iff_not_mem.1 waits)
  have hhandles : without w s.machine.handles = s.machine.handles :=
    without_eq_self (Machine.lookup_eq_none_iff_not_mem.1 holds)
  refine ⟨hx.rehearsal, hx.workload, hx.tasks, ?_, fun v hv hnot => ?_⟩
  · simp only [places, hwaiters, hhandles] at hcalls
    exact hcalls
  · refine hx.attended v hv fun hin => ?_
    have hin' : v ∈ w :: rest := next ▸ hin
    rcases List.mem_cons.1 hin' with rfl | hin'
    · exact Machine.lookup_eq_none_iff_not_mem.1 waits hv
    · exact hnot hin'

/-- The worker at the head of the queue takes the turn and returns what it has held. -/
theorem Orderly.returns {rest : List Nat} {hd : Handle} (hx : Orderly source config load (none, s))
    (next : s.queue = w :: rest) (holds : s.machine.handle? w = some hd) :
    Orderly source config load (some w, { s with queue := rest }.release w) := by
  have huse : ({ s with queue := rest } : Simulation).machine.InUse config := hx.rehearsal.inUse
  have hkeyed : s.machine.Keyed := hx.rehearsal.sound.keyed
  have hk : ({ s with queue := rest } : Simulation).machine.handle? w = some hd := holds
  have hcalls := hx.sensible.calls next
  have hwaiters : without w s.machine.waiters = s.machine.waiters :=
    without_eq_self (hkeyed.apart (List.mem_map_of_mem (Machine.mem_of_lookup holds)))
  refine ⟨hx.rehearsal.step (.release w), hx.workload, hx.tasks, ?_, fun v hv hnot =>
    absurd (attended_release huse hk hv) hnot⟩
  rw [release_places huse hk]
  simp only [places, hwaiters] at hcalls
  refine hcalls.wakes hkeyed.waiters fun v hv => ?_
  obtain ⟨e, he, rfl⟩ := List.mem_map.1 hv
  exact hkeyed.apart (List.mem_map_of_mem (mem_without.1 he).1)

/-- A worker that was handed a connection holds it for a while. -/
theorem Asked.holds {hd : Handle} (h : Asked source config load x w (.acquired hd) s)
    (long : 0 < s.load.holdMillis) : Orderly source config load (none, (s.work w).hold w) := by
  have hplaces := work_places h.rehearsal.inUse w
  have hload : (s.work w).load = s.load := by rw [work_eq]
  cases h.served with
  | acquired waiters handles stamp =>
    refine ⟨work_rehearsal h.rehearsal w, hload.trans h.workload, ?_, ?_, fun _ _ _ => ?_⟩
    · have hremaining : (s.work w).remaining = s.remaining := by rw [work_eq]
      exact (congrArg List.length hremaining).trans h.tasks
    · have hlong : Duration.zero < Duration.ofMillis load.holdMillis := by
        rw [← h.workload, Duration.lt_iff, Duration.nanos_zero, Duration.nanos_ofMillis]
        omega
      have hsensible := h.sensible.holds (stamp.trans h.now.symm) hlong
      rw [hold_places, hplaces, hload, h.workload]
      simp only [places, waiters, handles]
      exact hsensible
    · have hheld : (s.work w).machine.handles = s.machine.handles :=
        congrArg Places.handles hplaces
      show (s.work w).machine.handles ≠ []
      rw [hheld, handles]
      exact List.append_ne_nil_of_right_ne_nil _ (List.cons_ne_nil _ _)

/-- A worker that was handed a connection returns it at once. -/
theorem Asked.hurries {hd : Handle} (h : Asked source config load x w (.acquired hd) s)
    (hx : Orderly source config load x) :
    Orderly source config load (some w, (s.work w).release w) := by
  have hplaces := work_places h.rehearsal.inUse w
  have hrehearsal := work_rehearsal h.rehearsal w
  have hkeyed := hx.rehearsal.sound.keyed
  cases h.served with
  | acquired waiters handles stamp =>
    have hfree := h.sensible.free w rfl
    have hheld : (s.work w).machine.handles = x.2.machine.handles ++ [(w, hd)] :=
      (congrArg Places.handles hplaces).trans handles
    have hk : (s.work w).machine.handle? w = some hd :=
      Machine.lookup_of_mem hrehearsal.sound.keyed.handles
        (hheld ▸ List.mem_append_right _ List.mem_cons_self)
    have hback : without w (s.work w).machine.handles = x.2.machine.handles := by
      rw [hheld]
      exact without_append_self fun hmem => hfree (List.mem_append_right _ hmem)
    refine ⟨hrehearsal.step (.release w), ?_, ?_, ?_, fun v hv hnot =>
      absurd (attended_release hrehearsal.inUse hk hv) hnot⟩
    · have hload : (s.work w).load = s.load := by rw [work_eq]
      exact hload.trans h.workload
    · have hremaining : (s.work w).remaining = s.remaining := by rw [work_eq]
      exact (congrArg List.length hremaining).trans h.tasks
    · have hsub : ((without w x.2.machine.waiters).map (·.1)).Sublist
          (x.2.machine.waiters.map (·.1)) := Machine.without_keys_sublist w _
      rw [release_places hrehearsal.inUse hk, hback, hplaces]
      simp only [places, waiters]
      exact h.sensible.wakes (hkeyed.waiters.sublist hsub) fun v hv hmem =>
        hkeyed.apart hv (hsub.subset hmem)

/-- A worker that was handed nothing waits. -/
theorem Asked.parks (h : Asked source config load x w .waiting s) :
    Orderly source config load (none, s.await w) := by
  have hsound := h.rehearsal.sound
  cases h.served with
  | @waits p _ waiters handles since out =>
    have hmem : (w, p) ∈ s.machine.waiters := waiters ▸ List.mem_append_right _ List.mem_cons_self
    have hp : s.machine.waiter? w = some p := Machine.lookup_of_mem hsound.keyed.waiters hmem
    have hsensible := h.sensible.parks (since.trans h.now.symm)
    refine ⟨?_, ?_, ?_, ?_, fun _ _ _ => ?_⟩
    · rw [await_eq]
      exact h.rehearsal
    · rw [await_eq]
      exact h.workload
    · rw [await_eq]
      exact h.tasks
    · rw [await_places, hp]
      simp only [places, waiters, handles]
      exact hsensible
    · -- a connection is out, and somebody holds it
      obtain ⟨c, hc⟩ := List.exists_mem_of_ne_nil _ out
      obtain ⟨key, hkey⟩ := hsound.held c hc
      rw [await_eq]
      exact List.ne_nil_of_mem hkey

/-- A worker that was refused a connection has the turn as before. -/
theorem Asked.fails {e : PoolError} (h : Asked source config load x w (.refused e) s)
    (hx : Orderly source config load x) : Orderly source config load
      (some w, { s with acquireFailures := s.acquireFailures + 1 }) := by
  have hattended := h.attended hx
  cases h.served with
  | refused waiters handles =>
    refine ⟨h.rehearsal, h.workload, h.tasks, ?_, fun v hv hnot => ?_⟩
    · have hsensible := h.sensible
      simp only [places] at hsensible ⊢
      rw [waiters, handles]
      exact hsensible
    · show s.machine.handles ≠ []
      rw [handles]
      exact hattended v (waiters ▸ hv) hnot

/-- A millisecond passes when nobody can run. -/
theorem Orderly.ticks (hx : Orderly source config load (none, s)) (idle : s.queue = []) :
    Orderly source config load (none, s.tick) := by
  have huse : s.machine.InUse config := hx.rehearsal.inUse
  have hplaces := tick_places huse
  refine ⟨hx.rehearsal.step (.advance (.ofMillis 1)), hx.workload, hx.tasks, ?_,
    fun v hv _ => ?_⟩
  · rw [hplaces]
    exact hx.sensible.ticks idle
  · have hwaiters : s.tick.machine.waiters = s.machine.waiters := congrArg Places.waiters hplaces
    have hhandles : s.tick.machine.handles = s.machine.handles := congrArg Places.handles hplaces
    show s.tick.machine.handles ≠ []
    rw [hhandles]
    refine hx.attended v (hwaiters ▸ hv) ?_
    show v ∉ s.queue
    rw [idle]
    exact List.not_mem_nil

/-- **Every move keeps a stage orderly.** -/
theorem Move.orderly (hmove : Move x y) (hx : Orderly source config load x) :
    Orderly source config load y := by
  cases hmove with
  | starts next holds waits => exact hx.starts next holds waits
  | returns next holds => exact hx.returns next holds
  | stops left =>
    exact ⟨hx.rehearsal, hx.workload, hx.tasks, hx.sensible.stops left, hx.attended⟩
  | holds asks long => exact (hx.asked asks).holds long
  | hurries asks short => exact (hx.asked asks).hurries hx
  | parks asks => exact (hx.asked asks).parks
  | @fails _ w o s asks nothing ends =>
    have hasked := hx.asked asks
    cases hasked.served with
    | acquired => exact absurd rfl (nothing _)
    | waits => exact absurd rfl ends
    | refused => exact hasked.fails hx
  | ticks idle going => exact hx.ticks idle

end Stages

/-! ## Whole runs -/

section Runs

variable {source : Source} {config : PoolConfig} {load : Workload}

theorem orderly_start (source : Source) (load : Workload) (hword : config.badBudget < wordLimit) :
    Orderly source config load (none, start (.new source config) load) := by
  have hlength : (List.replicate load.tasks load.iterations).length = load.tasks :=
    List.length_replicate
  refine ⟨.start hword, rfl, hlength, ?_, nofun⟩
  constructor
  case once => exact (List.append_nil (List.range load.tasks)).symm ▸ List.nodup_range
  case known =>
    intro w (hw : w ∈ List.range load.tasks ++ [])
    rw [List.append_nil] at hw
    exact hlength.symm ▸ List.mem_range.1 hw
  case millis => rfl
  case finished =>
    intro v hlt _ hqueued
    exact absurd (List.mem_range.2 (hlength ▸ hlt)) hqueued
  all_goals exact nofun

variable {J : Stage → Prop}

/-- What holds of an orderly stage, and is kept by the moves of orderly stages, holds at the end of a
    path. -/
theorem Path.rule {x : Stage} {s : Simulation} (hpath : Path x s)
    (move : ∀ {x y}, Orderly source config load x → Move x y → J x → J y)
    (hx : Orderly source config load x) (hJ : J x) :
    Orderly source config load (none, s) ∧ J (none, s) := by
  obtain ⟨y, hmoves, hlast⟩ := hpath
  have hy : Orderly source config load y ∧ J y := by
    clear hlast
    induction hmoves with
    | refl => exact ⟨hx, hJ⟩
    | tail _ hmove ih => exact ⟨hmove.orderly ih.1, move ih.1 hmove ih.2⟩
  exact ⟨hlast.orderly hy.1, move hy.1 hlast hy.2⟩

/-- A turn of an orderly rehearsal is a path. -/
theorem Orderly.path {s : Simulation} (h : Orderly source config load (none, s))
    (hgoing : s.finished = false) : Path (none, s) s.step :=
  step_path hgoing fun w hw => h.sensible.known w
    (List.mem_append_right _ (List.mem_append_left _ hw))

/-- **The rule of rehearsals.**  What holds at the start, and is kept by the moves of orderly stages,
    holds after any number of turns; and every stage between two turns is orderly. -/
theorem runFor_rule (source : Source) (load : Workload) (hword : config.badBudget < wordLimit)
    {J : Stage → Prop} (move : ∀ {x y}, Orderly source config load x → Move x y → J x → J y)
    (hstart : J (none, start (.new source config) load)) (turns : Nat) :
    Orderly source config load (none, runFor turns (start (.new source config) load)) ∧
      J (none, runFor turns (start (.new source config) load)) := by
  have hfrom : ∀ (turns : Nat) (s : Simulation), Orderly source config load (none, s) →
      J (none, s) → Orderly source config load (none, runFor turns s) ∧ J (none, runFor turns s) := by
    intro turns
    induction turns with
    | zero => exact fun s hs hJ => ⟨hs, hJ⟩
    | succ turns ih =>
      intro s hs hJ
      cases hgoing : s.finished with
      | true =>
        rw [runFor, if_pos hgoing]
        exact ⟨hs, hJ⟩
      | false =>
        rw [runFor, if_neg (by rw [hgoing]; exact Bool.false_ne_true)]
        obtain ⟨hs', hJ'⟩ := (hs.path hgoing).rule move hs hJ
        exact ih s.step hs' hJ'
  exact hfrom turns _ (orderly_start source load hword) hstart

theorem orderly_runFor (source : Source) (load : Workload) (hword : config.badBudget < wordLimit)
    (turns : Nat) : Orderly source config load (none, runFor turns (start (.new source config) load)) :=
  (runFor_rule source load hword (J := fun _ => True) (fun _ _ _ => trivial) trivial turns).1

end Runs

end Simulation

end ConnPool
