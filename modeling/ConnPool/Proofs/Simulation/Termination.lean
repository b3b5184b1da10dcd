/-
  A rehearsal does not stop before its time, and it ends.

  As long as a worker has not finished, either it can run, or it holds a connection and its timer is
  set, or it waits; and in the last case somebody else holds a connection, who is in the queue or whose
  timer is set.  So the queue or a timer is never missing (`waits_for_something`), even if those who
  wait have no timers of their own.

  That a rehearsal ends is shown by a `measure`.  Every acquisition that is still owed, and every
  connection that is held, will put the other workers into the queue once more, and so may every
  millisecond of holding that is left.  No move increases the measure; a turn ends with a move that
  decreases it; and the number of turns that a rehearsal may take is more than the measure is at the
  start.
-/
import ConnPool.Proofs.Simulation.Schedule
import ConnPool.Proofs.Simulation.Setup

namespace ConnPool

open Machine (without without_append_self)

/-! ## What is still to come -/

/-- How many milliseconds a handle will still be held. -/
def Handle.rest (hold : Duration) (now : Instant) (h : Handle) : Nat :=
  (h.checkoutAt + hold - now).millis

namespace Places

variable {p : Places} {hold : Duration} {turn : Option Nat} {w : Nat}

/-- How many acquisitions are still to be answered. -/
def owed (p : Places) : Nat :=
  p.remaining.sum + p.waiters.length

/-- How many milliseconds the handles will still be held, one after the other. -/
def rest (hold : Duration) (p : Places) : Nat :=
  (p.handles.map fun e => e.2.rest hold p.now).sum

/-- How many answers are still to come, to those who ask for a connection and to those who hold one. -/
def answers (p : Places) : Nat :=
  p.owed + p.handles.length

/-- How many milliseconds connections will still be held, if each is held for so many. -/
def toHold (n : Nat) (p : Places) : Nat :=
  n * p.owed + p.rest (.ofMillis n)

/-- What is nothing need not be added up. -/
theorem sum_without {l : List (Key × Handle)} {f : Key × Handle → Nat}
    (hzero : ∀ e ∈ l, e.1 = w → f e = 0) : ((without w l).map f).sum = (l.map f).sum := by
  induction l with
  | nil => rfl
  | cons e l ih =>
    have hrest := ih fun x hx => hzero x (List.mem_cons_of_mem e hx)
    by_cases he : e.1 = w
    · rw [without, List.filter_cons_of_neg (by simpa using he), List.map_cons, List.sum_cons,
        hzero e List.mem_cons_self he, Nat.zero_add]
      exact hrest
    · rw [without, List.filter_cons_of_pos (by simpa using he), List.map_cons, List.sum_cons,
        List.map_cons, List.sum_cons]
      exact congrArg _ hrest

/-- Everybody has one less. -/
theorem sum_add_length {l : List (Key × Handle)} {f g : Key × Handle → Nat}
    (hone : ∀ e ∈ l, f e + 1 = g e) : (l.map f).sum + l.length = (l.map g).sum := by
  induction l with
  | nil => rfl
  | cons e l ih =>
    have hrest := ih fun x hx => hone x (List.mem_cons_of_mem e hx)
    have hfirst := hone e List.mem_cons_self
    rw [List.map_cons, List.sum_cons, List.map_cons, List.sum_cons, List.length_cons]
    omega

/-- To be woken is no answer. -/
theorem wake_owed (p : Places) : p.wake.owed = p.owed := by
  simp only [owed, wake, List.length_map]

theorem wake_answers (p : Places) : p.wake.answers = p.answers :=
  congrArg (· + p.handles.length) p.wake_owed

theorem wake_toHold (n : Nat) (p : Places) : p.wake.toHold n = p.toHold n :=
  congrArg (fun k => n * k + p.rest (.ofMillis n)) p.wake_owed

/-- A handle that was just handed out will be held for the whole time. -/
theorem rest_append {n : Nat} {hd : Handle} (hstamp : hd.checkoutAt = p.now) :
    rest (.ofMillis n) { p with handles := p.handles ++ [(w, hd)] } = p.rest (.ofMillis n) + n := by
  have hnew : hd.rest (.ofMillis n) p.now = n := by
    rw [Handle.rest, hstamp, Duration.millis, Duration.nanos_sub, Duration.nanos_add,
      Duration.nanos_ofMillis]
    omega
  simp only [rest, List.map_append, List.map_cons, List.map_nil, List.sum_append_nat,
    List.sum_cons, List.sum_nil, hnew, Nat.add_zero]

namespace Sensible

/-- Whoever holds a connection and is in the queue has held it for the whole time. -/
theorem rest_of_queued (h : p.Sensible hold turn) {e : Key × Handle} (he : e ∈ p.handles)
    (hin : e.1 ∈ p.queue) : e.2.rest hold p.now = 0 := by
  obtain ⟨-, ⟨-, hover⟩ | htimer⟩ := h.holders e he
  · rw [Handle.rest, Duration.millis, ← hover, Duration.nanos_sub, Nat.sub_self]
  · -- nobody stands in the queue and has a timer
    have honce := (List.nodup_append.1 h.once).2.1
    exact absurd rfl ((List.nodup_append.1 honce).2.2 e.1 hin e.1 (List.mem_map_of_mem htimer))

/-- Nothing is lost when such a connection is returned. -/
theorem rest_without (h : p.Sensible hold turn) (hin : w ∈ p.queue) :
    rest hold { p with handles := without w p.handles } = p.rest hold :=
  sum_without fun _ he hkey => h.rest_of_queued he (hkey ▸ hin)

/-- While a millisecond passes every holder holds its connection. -/
theorem rest_tick {n : Nat} (h : p.Sensible (.ofMillis n) none) (hqueue : p.queue = []) :
    (p.tickTo (p.now + .ofMillis 1)).rest (.ofMillis n) + p.handles.length =
      p.rest (.ofMillis n) := by
  refine sum_add_length fun e he => ?_
  obtain ⟨hstamp, ⟨hin, -⟩ | htimer⟩ := h.holders e he
  · rw [hqueue] at hin
    nomatch hin
  · have hlate := Duration.lt_iff.1 (h.future _ htimer)
    have hmillis := h.millis
    show (e.2.checkoutAt + .ofMillis n - (p.now + .ofMillis 1)).millis + 1 =
      (e.2.checkoutAt + .ofMillis n - p.now).millis
    simp only [Duration.millis, Duration.nanos_sub, Duration.nanos_add,
      Duration.nanos_ofMillis] at hlate ⊢
    omega

/-- Only the workers that take part can be in the queue. -/
theorem length_le (h : p.Sensible hold turn) :
    turn.toList.length + p.queue.length ≤ p.remaining.length := by
  have hsub : turn.toList ++ (p.queue ++ p.timers.map (·.1)) ⊆ List.range p.remaining.length :=
    fun w hw => List.mem_range.2 (h.known w hw)
  have hle := h.once.length_le_of_subset hsub
  rw [List.length_append, List.length_append, List.length_range] at hle
  omega

end Sensible

end Places

namespace Simulation

section Stages

variable {source : Source} {config : PoolConfig} {load : Workload} {x y : Stage} {w : Nat}
  {o : Outcome} {s : Simulation}

/-! ## Nobody waits in vain -/

/-- A worker has finished: it cannot run, holds nothing, waits for nothing, and has no iteration left. -/
structure Done (s : Simulation) (w : Nat) : Prop where
  queue : w ∉ s.queue
  holds : s.machine.handle? w = none
  waits : s.machine.waiter? w = none
  left : s.remaining[w]? = some 0

/-- While nobody can run and somebody has not finished, somebody holds a connection. -/
theorem Orderly.holder (h : Orderly source config load (none, s)) (hidle : s.queue = [])
    (hgoing : s.machine.waiters ≠ [] ∨ s.machine.handles ≠ []) : s.machine.handles ≠ [] := by
  rcases hgoing with hwaits | hholds
  · obtain ⟨e, he⟩ := List.exists_mem_of_ne_nil _ hwaits
    refine h.attended e.1 (List.mem_map_of_mem he) ?_
    show e.1 ∉ s.queue
    rw [hidle]
    exact List.not_mem_nil
  · exact hholds

/-- Between two turns a worker has finished, or somebody waits, or holds a connection, or can run. -/
theorem Orderly.going (h : Orderly source config load (none, s)) (hw : w < load.tasks)
    (hnot : ¬ s.Done w) :
    s.queue ≠ [] ∨ s.machine.waiters ≠ [] ∨ s.machine.handles ≠ [] := by
  by_contra hnone
  simp only [not_or, not_not] at hnone
  obtain ⟨hqueue, hwaiters, hhandles⟩ := hnone
  have hfinished := h.sensible.finished w (by rw [← h.tasks] at hw; exact hw) nofun
  refine hnot ⟨?_, ?_, ?_, hfinished ?_ ?_⟩
  · rw [hqueue]
    exact List.not_mem_nil
  · rw [Machine.handle?, hhandles]
    rfl
  · rw [Machine.waiter?, hwaiters]
    rfl
  · show w ∉ s.queue
    rw [hqueue]
    exact List.not_mem_nil
  · show w ∉ s.machine.waiters.map (·.1) ++ s.machine.handles.map (·.1)
    rw [hwaiters, hhandles]
    exact List.not_mem_nil

/-- **Nobody waits in vain.** -/
theorem Orderly.pending (h : Orderly source config load (none, s)) (hw : w < load.tasks)
    (hnot : ¬ s.Done w) : s.queue ≠ [] ∨ s.timers ≠ [] := by
  by_cases hidle : s.queue = []
  · have hheld := h.holder hidle ((h.going hw hnot).resolve_left (absurd hidle ·))
    obtain ⟨e, he⟩ := List.exists_mem_of_ne_nil _ hheld
    obtain ⟨-, ⟨hin, -⟩ | htimer⟩ := h.sensible.holders e he
    · have hin' : e.1 ∈ s.queue := hin
      rw [hidle] at hin'
      nomatch hin'
    · exact Or.inr (List.ne_nil_of_mem htimer)
  · exact Or.inl hidle

/-! ## The measure -/

/-- A request that is answered by a connection or a refusal is owed no more. -/
theorem Asked.owed (h : Asked source config load x w o s) :
    (o = .waiting → s.places.owed = x.2.places.owed) ∧
    (o ≠ .waiting → s.places.owed + 1 = x.2.places.owed) := by
  have hleft := h.left
  have howed : s.places.owed = s.remaining.sum + s.machine.waiters.length := rfl
  have hbefore : x.2.places.owed = x.2.remaining.sum + x.2.machine.waiters.length := rfl
  rw [howed, hbefore]
  cases h.served with
  | acquired waiters | refused waiters =>
    rw [waiters]
    exact ⟨nofun, fun _ => hleft⟩
  | waits waiters =>
    rw [waiters, List.length_append, List.length_singleton]
    exact ⟨fun _ => by omega, fun hne => absurd rfl hne⟩

/-- The places that a request leaves when a connection is handed out. -/
theorem Asked.handles {hd : Handle} (h : Asked source config load x w (.acquired hd) s) :
    s.places.handles = x.2.places.handles ++ [(w, hd)] ∧ s.places.now = x.2.places.now ∧
      hd.checkoutAt = x.2.places.now ∧ w ∉ x.2.places.handles.map (·.1) := by
  cases h.served with
  | acquired _ handles stamp =>
    exact ⟨handles, h.now, stamp, fun hmem => h.sensible.free w rfl (List.mem_append_right _ hmem)⟩

/-- What is left to hold was left to hold before, and the whole time for a new handle. -/
theorem Asked.rest {hd : Handle} (h : Asked source config load x w (.acquired hd) s) (n : Nat) :
    s.places.rest (.ofMillis n) = x.2.places.rest (.ofMillis n) + n := by
  obtain ⟨hhandles, hnow, hstamp, -⟩ := h.handles
  have hnew := Places.rest_append (p := x.2.places) (w := w) (n := n) hstamp
  simp only [Places.rest] at hnew ⊢
  rw [hhandles, hnow]
  exact hnew

/-- What a worker leaves that returns at once what it was handed. -/
theorem Asked.hurried {hd : Handle} (h : Asked source config load x w (.acquired hd) s) :
    ((s.work w).release w).places =
      { s.places with handles := x.2.places.handles }.wake := by
  obtain ⟨hhandles, -, -, hnew⟩ := h.handles
  have hplaces := work_places h.rehearsal.inUse w
  have hheld : (s.work w).machine.handles = x.2.places.handles ++ [(w, hd)] :=
    (congrArg Places.handles hplaces).trans hhandles
  have hrehearsal := work_rehearsal h.rehearsal w
  have hk : (s.work w).machine.handle? w = some hd :=
    Machine.lookup_of_mem hrehearsal.sound.keyed.handles
      (hheld ▸ List.mem_append_right _ List.mem_cons_self)
  rw [release_places hrehearsal.inUse hk, hplaces, hheld, without_append_self hnew]

/-- How many workers can run. -/
def ready (x : Stage) : Nat :=
  x.1.toList.length + x.2.queue.length

/-- What is still to come at a stage: an answer, or a millisecond, may put every worker into the queue. -/
def measure (load : Workload) (x : Stage) : Nat :=
  ready x + load.tasks * x.2.places.answers +
    (load.tasks + 1) * x.2.places.toHold load.holdMillis

/-- How a move gets ahead: a worker that could run has run, or an answer is given, or time passes. -/
inductive Progress (load : Workload) (x y : Stage) : Prop
  | runs (calls : y.2.places.answers = x.2.places.answers)
      (time : y.2.places.toHold load.holdMillis = x.2.places.toHold load.holdMillis)
      (few : ready y ≤ ready x) (fewer : y.1 = none → ready y < ready x)
  | answers (calls : y.2.places.answers < x.2.places.answers)
      (time : y.2.places.toHold load.holdMillis ≤ x.2.places.toHold load.holdMillis)
      (turn : y.1 ≠ none)
  | passes (calls : y.2.places.answers = x.2.places.answers)
      (time : y.2.places.toHold load.holdMillis < x.2.places.toHold load.holdMillis)

/-- The worker that asks could run before, and has the turn now. -/
theorem Asked.runs (h : Asked source config load x w o s) : ready (some w, s) = ready x := by
  have hqueue := congrArg List.length h.queue
  rw [List.length_append, List.length_cons] at hqueue
  show 1 + s.queue.length = x.1.toList.length + x.2.queue.length
  omega

/-- One connection more is held, and one acquisition fewer is owed. -/
theorem Asked.acquired {hd : Handle} (h : Asked source config load x w (.acquired hd) s) (n : Nat) :
    s.places.answers = x.2.places.answers ∧ s.places.toHold n = x.2.places.toHold n := by
  have howed := h.owed.2 nofun
  have hrest := h.rest n
  rw [Places.answers, Places.answers, Places.toHold, Places.toHold, h.handles.1, hrest, ← howed,
    List.length_append, List.length_singleton, Nat.mul_succ]
  omega

theorem Asked.holds_progress {hd : Handle} (h : Asked source config load x w (.acquired hd) s) :
    Progress load x (none, (s.work w).hold w) := by
  obtain ⟨hanswers, htoHold⟩ := h.acquired load.holdMillis
  have hqueue : (s.work w).queue = s.queue := by rw [work_eq]
  have hless : ready (none, (s.work w).hold w) < ready x := by
    rw [← h.runs]
    show 0 + (s.work w).queue.length < 1 + s.queue.length
    rw [hqueue]
    omega
  have hplaces : ((s.work w).hold w).places.answers = s.places.answers ∧
      ((s.work w).hold w).places.toHold load.holdMillis = s.places.toHold load.holdMillis := by
    rw [hold_places, work_places h.rehearsal.inUse w]
    exact ⟨rfl, rfl⟩
  exact .runs (hplaces.1.trans hanswers) (hplaces.2.trans htoHold) (Nat.le_of_lt hless)
    fun _ => hless

theorem Asked.hurries_progress {hd : Handle} (h : Asked source config load x w (.acquired hd) s)
    (short : load.holdMillis = 0) : Progress load x (some w, (s.work w).release w) := by
  obtain ⟨hanswers, htoHold⟩ := h.acquired 0
  have hrest := h.rest 0
  have howed := h.owed.2 nofun
  refine .answers ?_ ?_ (Option.some_ne_none w)
  · show ((s.work w).release w).places.answers < _
    rw [h.hurried, Places.wake_answers]
    show s.places.owed + x.2.places.handles.length < x.2.places.owed + x.2.places.handles.length
    omega
  · show ((s.work w).release w).places.toHold load.holdMillis ≤ _
    rw [h.hurried, Places.wake_toHold, short]
    show 0 * s.places.owed + Places.rest (.ofMillis 0) { s.places with handles := x.2.places.handles }
      ≤ 0 * x.2.places.owed + x.2.places.rest (.ofMillis 0)
    rw [Nat.zero_mul, Nat.zero_mul, Places.rest, Places.rest, h.handles.2.1]

theorem Asked.parks_progress (h : Asked source config load x w .waiting s) :
    Progress load x (none, s.await w) := by
  have howed := h.owed.1 rfl
  cases h.served with
  | waits _ handles =>
    have hheld : s.places.handles = x.2.places.handles := handles
    have hnow : s.places.now = x.2.places.now := h.now
    have hless : ready (none, s.await w) < ready x := by
      rw [← h.runs, await_eq]
      show 0 + s.queue.length < 1 + s.queue.length
      omega
    refine .runs ?_ ?_ (Nat.le_of_lt hless) fun _ => hless
    · show (s.await w).places.answers = _
      rw [await_places]
      show s.places.owed + s.places.handles.length = _
      rw [howed, hheld]
      rfl
    · show (s.await w).places.toHold _ = _
      rw [await_places]
      show load.holdMillis * s.places.owed + s.places.rest (.ofMillis load.holdMillis) = _
      rw [howed, Places.rest, hheld, hnow]
      rfl

theorem Asked.fails_progress {e : PoolError} (h : Asked source config load x w (.refused e) s) :
    Progress load x (some w, { s with acquireFailures := s.acquireFailures + 1 }) := by
  have howed := h.owed.2 nofun
  cases h.served with
  | refused _ handles =>
    have hheld : s.places.handles = x.2.places.handles := handles
    have hnow : s.places.now = x.2.places.now := h.now
    refine .answers ?_ ?_ (Option.some_ne_none w)
    · show s.places.owed + s.places.handles.length < x.2.places.owed + x.2.places.handles.length
      rw [hheld]
      omega
    · show load.holdMillis * s.places.owed + s.places.rest (.ofMillis load.holdMillis) ≤
        load.holdMillis * x.2.places.owed + x.2.places.rest (.ofMillis load.holdMillis)
      rw [Places.rest, Places.rest, hheld, hnow]
      have := Nat.mul_le_mul_left load.holdMillis (Nat.le_of_lt (Nat.lt_of_succ_le howed.le))
      omega

/-- What a worker leaves that returns what it has held for the whole time. -/
theorem Orderly.returned {rest : List Nat} {hd : Handle}
    (hx : Orderly source config load (none, s)) (next : s.queue = w :: rest)
    (holds : s.machine.handle? w = some hd) :
    (({ s with queue := rest } : Simulation).release w).places.owed = s.places.owed ∧
      (({ s with queue := rest } : Simulation).release w).places.handles.length + 1 =
        s.places.handles.length ∧
      (({ s with queue := rest } : Simulation).release w).places.rest (.ofMillis load.holdMillis) =
        s.places.rest (.ofMillis load.holdMillis) := by
  have hk : ({ s with queue := rest } : Simulation).machine.handle? w = some hd := holds
  have hin : w ∈ s.places.queue := by
    show w ∈ s.queue
    rw [next]
    exact List.mem_cons_self
  rw [release_places (s := { s with queue := rest }) hx.rehearsal.inUse hk, Places.wake_owed]
  refine ⟨rfl, ?_, hx.sensible.rest_without hin⟩
  exact Machine.length_without hx.rehearsal.sound.keyed.handles
    (List.mem_map_of_mem (Machine.mem_of_lookup holds))

/-- A handle is returned whose hold is over. -/
theorem Orderly.returns_progress {rest : List Nat} {hd : Handle}
    (hx : Orderly source config load (none, s)) (next : s.queue = w :: rest)
    (holds : s.machine.handle? w = some hd) :
    Progress load (none, s) (some w, { s with queue := rest }.release w) := by
  obtain ⟨howed, hlength, hrest⟩ := hx.returned next holds
  refine .answers ?_ ?_ (Option.some_ne_none w)
  · show ({ s with queue := rest }.release w).places.answers < s.places.answers
    rw [Places.answers, Places.answers, howed]
    omega
  · show ({ s with queue := rest }.release w).places.toHold load.holdMillis ≤
      s.places.toHold load.holdMillis
    rw [Places.toHold, Places.toHold, howed, hrest]

/-- When a millisecond passes somebody holds a connection. -/
theorem Orderly.ticked (hx : Orderly source config load (none, s)) (idle : s.queue = [])
    (going : s.finished = false) : s.tick.places.owed = s.places.owed ∧
      s.tick.places.handles = s.places.handles ∧
      s.tick.places.rest (.ofMillis load.holdMillis) + s.machine.handles.length =
        s.places.rest (.ofMillis load.holdMillis) ∧ 0 < s.machine.handles.length := by
  have hgoing : s.machine.waiters ≠ [] ∨ s.machine.handles ≠ [] := by
    by_contra hnone
    simp only [not_or, not_not] at hnone
    simp [finished, idle, hnone.1, hnone.2] at going
  rw [tick_places hx.rehearsal.inUse]
  exact ⟨rfl, rfl, hx.sensible.rest_tick idle, List.length_pos_iff.2 (hx.holder idle hgoing)⟩

theorem Orderly.ticks_progress (hx : Orderly source config load (none, s)) (idle : s.queue = [])
    (going : s.finished = false) : Progress load (none, s) (none, s.tick) := by
  obtain ⟨howed, hhandles, hrest, hheld⟩ := hx.ticked idle going
  refine .passes ?_ ?_
  · show s.tick.places.answers = s.places.answers
    rw [Places.answers, Places.answers, howed, hhandles]
  · show s.tick.places.toHold load.holdMillis < s.places.toHold load.holdMillis
    rw [Places.toHold, Places.toHold, howed]
    omega

/-- **Every move gets ahead.** -/
theorem Move.progress (hmove : Move x y) (hx : Orderly source config load x) :
    Progress load x y := by
  cases hmove with
  | @starts s w rest next holds waits =>
    refine .runs rfl rfl (Nat.le_of_eq ?_) (absurd · (Option.some_ne_none w))
    show 1 + rest.length = 0 + s.queue.length
    rw [next, List.length_cons]
    omega
  | returns next holds => exact hx.returns_progress next holds
  | @stops s w left =>
    have hless : ready (none, s) < ready (some w, s) := by
      show 0 + s.queue.length < 1 + s.queue.length
      omega
    exact .runs rfl rfl (Nat.le_of_lt hless) fun _ => hless
  | holds asks long => exact (hx.asked asks).holds_progress
  | hurries asks short =>
    have hasked := hx.asked asks
    exact hasked.hurries_progress (hasked.workload ▸ short)
  | parks asks => exact (hx.asked asks).parks_progress
  | fails asks nothing ends =>
    have hasked := hx.asked asks
    cases hasked.served with
    | acquired => exact absurd rfl (nothing _)
    | waits => exact absurd rfl ends
    | refused => exact hasked.fails_progress
  | ticks idle going => exact hx.ticks_progress idle going

/-- No move increases the measure, and one that gives the turn back decreases it. -/
theorem Move.measure (hmove : Move x y) (hx : Orderly source config load x) :
    measure load y ≤ measure load x ∧
      (y.1 = none → Simulation.measure load y < Simulation.measure load x) := by
  have hready : ready y ≤ load.tasks := by
    have hy := hmove.orderly hx
    exact hy.tasks ▸ hy.sensible.length_le
  simp only [Simulation.measure]
  cases hmove.progress hx with
  | runs calls time few fewer =>
    rw [calls, time]
    exact ⟨by omega, fun hturn => by have := fewer hturn; omega⟩
  | answers calls time turn =>
    have hcalls := Nat.mul_le_mul_left load.tasks (Nat.succ_le_of_lt calls)
    have htime := Nat.mul_le_mul_left (load.tasks + 1) time
    rw [Nat.succ_eq_add_one, Nat.mul_succ] at hcalls
    exact ⟨by omega, fun hturn => absurd hturn turn⟩
  | passes calls time =>
    have htime := Nat.mul_le_mul_left (load.tasks + 1) (Nat.succ_le_of_lt time)
    rw [Nat.succ_eq_add_one, Nat.mul_succ] at htime
    rw [calls]
    exact ⟨by omega, fun _ => by omega⟩

/-! ## Turns -/

/-- A turn decreases the measure. -/
theorem Orderly.measure_step (h : Orderly source config load (none, s))
    (going : s.finished = false) : measure load (none, s.step) < measure load (none, s) := by
  obtain ⟨y, hmoves, hlast⟩ := h.path going
  have hy : Orderly source config load y ∧ measure load y ≤ measure load (none, s) := by
    clear hlast
    induction hmoves with
    | refl => exact ⟨h, Nat.le_refl _⟩
    | tail _ hmove ih => exact ⟨hmove.orderly ih.1, Nat.le_trans (hmove.measure ih.1).1 ih.2⟩
  exact Nat.lt_of_lt_of_le ((hlast.measure hy.1).2 rfl) hy.2

theorem Orderly.step (h : Orderly source config load (none, s)) (going : s.finished = false) :
    Orderly source config load (none, s.step) :=
  ((h.path going).rule (J := fun _ => True) (fun _ _ _ => trivial) h trivial).1

/-- With more turns than the measure a rehearsal comes to its end. -/
theorem Orderly.finished_runFor (turns : Nat) : ∀ s : Simulation,
    Orderly source config load (none, s) → measure load (none, s) < turns →
      (runFor turns s).finished = true := by
  induction turns with
  | zero => exact fun s _ hlt => absurd hlt (Nat.not_lt_zero _)
  | succ turns ih =>
    intro s h hlt
    cases going : s.finished with
    | true =>
      rw [runFor, if_pos going]
      exact going
    | false =>
      rw [runFor, if_neg (by rw [going]; exact Bool.false_ne_true)]
      have hstep := h.measure_step going
      exact ih s.step (h.step going) (by omega)

/-- At the start every iteration is owed. -/
theorem owed_start (pool : Pool) (load : Workload) :
    (start pool load).places.owed = load.tasks * load.iterations := by
  show (List.replicate load.tasks load.iterations).sum + 0 = _
  rw [List.sum_replicate_nat]
  rfl

/-- The turns that a rehearsal may take are more than the measure at its start. -/
theorem measure_start (pool : Pool) (load : Workload) :
    measure load (none, start pool load) < turns load := by
  have hready : ready (none, start pool load) = load.tasks := by
    show 0 + (List.range load.tasks).length = load.tasks
    rw [List.length_range, Nat.zero_add]
  have howed := owed_start pool load
  have hhold : (start pool load).places.toHold load.holdMillis =
      load.tasks * load.iterations * load.holdMillis := by
    show load.holdMillis * (start pool load).places.owed + 0 = _
    rw [howed, Nat.mul_comm, Nat.add_zero]
  have hanswers : (start pool load).places.answers = load.tasks * load.iterations := howed
  simp only [measure, turns, hready, hanswers, hhold, Nat.mul_add, Nat.add_mul]
  omega

theorem finished_iff {s : Simulation} : s.finished = true ↔
    s.queue = [] ∧ s.machine.handles = [] ∧ s.machine.waiters = [] := by
  simp only [finished, Bool.and_eq_true, List.isEmpty_iff, and_assoc]

/-- The end of a rehearsal. -/
theorem finished_run (source : Source) (load : Workload) (hword : config.badBudget < wordLimit) :
    (run (.new source config) load).finished = true :=
  Orderly.finished_runFor (turns load) _ (orderly_start source load hword)
    (measure_start (.new source config) load)

/-- Whoever takes part in a rehearsal that is finished is done. -/
theorem Orderly.done (h : Orderly source config load (none, s)) (hfinished : s.finished = true)
    (hw : w < load.tasks) : s.Done w := by
  obtain ⟨hqueue, hhandles, hwaiters⟩ := finished_iff.1 hfinished
  by_contra hnot
  rcases h.going hw hnot with hgoing | hgoing | hgoing
  · exact hgoing hqueue
  · exact hgoing hwaiters
  · exact hgoing hhandles

/-- In the end nothing is owed. -/
theorem Orderly.owed_eq_zero (h : Orderly source config load (none, s))
    (hfinished : s.finished = true) : s.places.owed = 0 := by
  have hwaiters : s.places.waiters = [] := (finished_iff.1 hfinished).2.2
  rw [Places.owed, hwaiters]
  refine List.sum_eq_zero_iff_forall_eq_nat.2 fun n hn => ?_
  obtain ⟨w, hw, rfl⟩ := List.getElem_of_mem hn
  have hleft := (h.done hfinished (h.tasks ▸ hw)).left
  exact Option.some.inj ((List.getElem?_eq_getElem hw).symm.trans hleft)

end Stages

/-! ## Every rehearsal -/

/-- A rehearsal does not get stuck, and it ends. -/
structure Ends (pool : Pool) (load : Workload) : Prop where
  /-- Whenever a worker has not finished, somebody can run or a timer is set. -/
  goesOn : ∀ turns w, w < load.tasks → ¬ (runFor turns (start pool load)).Done w →
    (runFor turns (start pool load)).queue ≠ [] ∨ (runFor turns (start pool load)).timers ≠ []
  /-- In the end every worker has finished. -/
  done : ∀ w < load.tasks, (run pool load).Done w
  finished : (run pool load).finished = true

theorem ends_run (source : Source) {config : PoolConfig} (load : Workload)
    (hword : config.badBudget < wordLimit) : Ends (.new source config) load where
  goesOn turns _ hw hnot := (orderly_runFor source load hword turns).pending hw hnot
  done _ hw := (orderly_runFor source load hword (turns load)).done (finished_run source load hword) hw
  finished := finished_run source load hword

/-- **No rehearsal gets stuck, and every rehearsal ends.**  Whatever configuration is accepted, and
    whatever the workers are told to do, the rehearsal of it goes on as long as a worker has not
    finished, and comes to the point where every worker has. -/
theorem every_rehearsal_ends {text : String} {config : Config}
    (hparse : Config.parse text = .ok config) (hdriver : config.source.driver = "memory")
    (load : Workload) : ∃ pool, Pool.ofConfig config 0 = .ok pool ∧
      Commands.simulate (.ok text) load = .ok (run pool load).report ∧ Ends pool load := by
  obtain ⟨-, -, -, hvalid⟩ := Config.parse_cases hparse
  obtain ⟨source, limits, hlimits, -, hpool⟩ := Config.resolves hvalid
  exact ⟨_, hpool, Commands.simulate_ok hparse hdriver hpool load,
    ends_run source load (Config.budget_of_parse hparse hlimits)⟩

/-- A pool of one connection on which nobody has a timer that waits. -/
def patient : Config where
  source := { driver := "memory", url := "memory://rehearsal" }
  pool := some { maxActive := some 1, timeToWait := some "0ms" }

theorem patient_valid : patient.validate = .ok () := rfl

theorem every_rehearsal_ends_patient : ∃ text, Config.parse text = .ok patient ∧
    ∃ pool, Pool.ofConfig patient 0 = .ok pool ∧
      Commands.simulate (.ok text) ⟨3, 2, 5, 2⟩ = .ok (run pool ⟨3, 2, 5, 2⟩).report ∧
        Ends pool ⟨3, 2, 5, 2⟩ := by
  obtain ⟨text, -, hparse⟩ := Config.parse_of_writable patient_valid rfl
  exact ⟨text, hparse, every_rehearsal_ends hparse rfl ⟨3, 2, 5, 2⟩⟩

end Simulation

end ConnPool
