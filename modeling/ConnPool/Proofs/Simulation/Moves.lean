/-
  A turn of a rehearsal, move by move.

  In one turn a worker may acquire, hold and return several connections, one after the other.  To say
  what a turn preserves it is cut into moves.  Between two moves the rehearsal is at a `Stage`: either
  nobody has the turn, or one worker has it, holds nothing and waits for nothing.  A worker with the
  turn asks for a connection, or stops since no iteration is left; one at the head of the queue takes
  the turn, and returns its connection if it holds one, or goes on with its wait.  What its request
  comes to (`Asks`) decides the next stage.

  `step_path` says that every turn is a path of moves, the last of which gives the turn back.  A
  property that every move preserves is preserved by every turn, and a measure that no move increases
  and that decreases whenever the turn is given back decreases in every turn.
-/
import ConnPool.Simulation
import Mathlib.Logic.Relation

namespace ConnPool

/-- Whether something was refused. -/
def Outcome.isRefused : Outcome → Bool
  | .refused _ => true
  | _ => false

namespace Simulation

/-- The worker that has the turn, if one has it, and the rehearsal. -/
abbrev Stage := Option Nat × Simulation

/-! ## Iterations that are left -/

section Leave

variable (s : Simulation) (w n k : Nat)

theorem leave_leave : (s.leave w n).leave w k = s.leave w k := by
  simp only [leave, List.set_set]

theorem leave_self {s : Simulation} {w n : Nat} (h : s.remaining[w]? = some n) :
    s.leave w n = s := by
  obtain ⟨hlt, rfl⟩ := List.getElem?_eq_some_iff.1 h
  simp only [leave, List.set_getElem_self]

theorem left_leave (h : w < s.remaining.length) : (s.leave w n).remaining[w]? = some n :=
  List.getElem?_set_self h

theorem event_leave (e : Event Memory) :
    (s.leave w n).event e = ((s.event e).1, (s.event e).2.leave w n) := rfl

theorem release_leave : (s.leave w n).release w = (s.release w).leave w n := rfl

/-- What a statement leaves of a rehearsal. -/
theorem work_eq : s.work w = { s with
    machine := (s.machine.step Memory.drivers (.use w (.execute statement))).2
    statementFailures := s.statementFailures +
      (s.machine.step Memory.drivers (.use w (.execute statement))).1.isRefused.toNat } := by
  simp only [work, event]
  cases (s.machine.step Memory.drivers (.use w (.execute statement))).1 <;> rfl

theorem work_leave : (s.leave w n).work w = (s.work w).leave w n := by
  rw [work_eq, work_eq]
  rfl

theorem await_eq : s.await w = { s with
    timers := s.timers ++
      (((s.machine.waiter? w).bind Waiter.deadline?).map fun d => (w, d)).toList } := by
  unfold await
  cases (s.machine.waiter? w).bind Waiter.deadline? with
  | none => simp only [Option.map_none, Option.toList_none, List.append_nil]
  | some d => rfl

end Leave

/-! ## Moves -/

/-- A worker's request for a connection, and what it comes to: a worker with the turn asks for one, or
    a worker at the head of the queue goes on with its wait. -/
inductive Asks : Stage → Nat → Outcome × Simulation → Prop
  | anew {s w n} (left : s.remaining[w]? = some (n + 1)) :
      Asks (some w, s) w
        ((s.event (.acquire w none)).1, (s.event (.acquire w none)).2.leave w n)
  | again {s w rest} (next : s.queue = w :: rest) (holds : s.machine.handle? w = none)
      (waits : (s.machine.waiter? w).isSome) :
      Asks (none, s) w ({ s with queue := rest }.event (.resume w))

/-- One move. -/
inductive Move : Stage → Stage → Prop
  /-- A worker takes the turn. -/
  | starts {s w rest} (next : s.queue = w :: rest) (holds : s.machine.handle? w = none)
      (waits : s.machine.waiter? w = none) : Move (none, s) (some w, { s with queue := rest })
  /-- It does, and returns what it has held. -/
  | returns {s w rest h} (next : s.queue = w :: rest) (holds : s.machine.handle? w = some h) :
      Move (none, s) (some w, { s with queue := rest }.release w)
  /-- A worker has no iteration left. -/
  | stops {s w} (left : s.remaining[w]? = some 0) : Move (some w, s) (none, s)
  /-- It runs its statement and holds its connection for a while. -/
  | holds {x w h s} (asks : Asks x w (.acquired h, s)) (long : 0 < s.load.holdMillis) :
      Move x (none, (s.work w).hold w)
  /-- It runs its statement and returns its connection at once. -/
  | hurries {x w h s} (asks : Asks x w (.acquired h, s)) (short : s.load.holdMillis = 0) :
      Move x (some w, (s.work w).release w)
  /-- It waits. -/
  | parks {x w s} (asks : Asks x w (.waiting, s)) : Move x (none, s.await w)
  /-- It is given no connection. -/
  | fails {x w o s} (asks : Asks x w (o, s)) (nothing : ∀ h, o ≠ .acquired h) (ends : o ≠ .waiting) :
      Move x (some w, { s with acquireFailures := s.acquireFailures + 1 })
  /-- A millisecond passes. -/
  | ticks {s} (idle : s.queue = []) (going : s.finished = false) : Move (none, s) (none, s.tick)

/-- Some moves, the last of which gives the turn back. -/
def Path (x : Stage) (s : Simulation) : Prop :=
  ∃ y, Relation.ReflTransGen Move x y ∧ Move y (none, s)

theorem Move.path {x : Stage} {s : Simulation} (h : Move x (none, s)) : Path x s :=
  ⟨x, .refl, h⟩

theorem Path.head {x y : Stage} {s : Simulation} (h : Move x y) (h' : Path y s) : Path x s := by
  obtain ⟨z, hz, hlast⟩ := h'
  exact ⟨z, .head h hz, hlast⟩

/-! ## A turn is a path -/

section Turn

variable {w : Nat} {s : Simulation}

theorem carryOn_acquired (n : Nat) (h : Handle) (s : Simulation) :
    carryOn w n (.acquired h, s) =
      if 0 < (s.work w).load.holdMillis then ((s.work w).leave w n).hold w
      else ((s.work w).release w).iterate w n := by
  cases n <;> rfl

theorem carryOn_waiting (n : Nat) (s : Simulation) :
    carryOn w n (.waiting, s) = (s.leave w n).await w := by
  cases n <;> rfl

theorem carryOn_other {o : Outcome} (n : Nat) (s : Simulation) (hn : ∀ h, o ≠ .acquired h)
    (hw : o ≠ .waiting) : carryOn w n (o, s) =
      ({ s with acquireFailures := s.acquireFailures + 1 } : Simulation).iterate w n := by
  cases o with
  | acquired h => exact absurd rfl (hn h)
  | waiting => exact absurd rfl hw
  | _ => cases n <;> rfl

/-- What follows a request is a path if what follows its iteration is one. -/
theorem carryOn_path {x : Stage} {n : Nat} {o : Outcome}
    (hrest : ∀ s : Simulation, w < s.remaining.length → Path (some w, s.leave w n) (s.iterate w n))
    (hlt : w < s.remaining.length) (hasks : Asks x w (o, s.leave w n)) :
    Path x (carryOn w n (o, s)) := by
  have hlength : w < (s.work w).remaining.length := by
    rw [work_eq]
    exact hlt
  have hload : (s.work w).load = s.load := by rw [work_eq]
  by_cases hacquired : ∃ h, o = .acquired h
  · obtain ⟨h, rfl⟩ := hacquired
    rw [carryOn_acquired, hload]
    by_cases hlong : 0 < s.load.holdMillis
    · rw [if_pos hlong, ← work_leave]
      exact (Move.holds hasks hlong).path
    · rw [if_neg hlong]
      have hmove := Move.hurries hasks (Nat.eq_zero_of_not_pos hlong)
      rw [work_leave, release_leave] at hmove
      exact .head hmove (hrest ((s.work w).release w) hlength)
  · have hnothing : ∀ h, o ≠ .acquired h := fun h he => hacquired ⟨h, he⟩
    by_cases hwaits : o = .waiting
    · subst hwaits
      rw [carryOn_waiting]
      exact (Move.parks hasks).path
    · rw [carryOn_other n s hnothing hwaits]
      exact .head (Move.fails hasks hnothing hwaits)
        (hrest { s with acquireFailures := s.acquireFailures + 1 } hlt)

/-- What a worker with the turn does with its iterations is a path. -/
theorem iterate_path (n : Nat) : ∀ s : Simulation, w < s.remaining.length →
    Path (some w, s.leave w n) (s.iterate w n) := by
  induction n with
  | zero => exact fun s hlt => (Move.stops (s.left_leave w 0 hlt)).path
  | succ n ih =>
    intro s hlt
    refine carryOn_path ih hlt ?_
    have hasks := Asks.anew (s := s.leave w (n + 1)) (s.left_leave w (n + 1) hlt)
    rw [event_leave, leave_leave] at hasks
    exact hasks

/-- The same of a worker with its own iterations. -/
theorem iterate_path_of_left {n : Nat} {s : Simulation} (h : s.remaining[w]? = some n) :
    Path (some w, s) (s.iterate w n) := by
  have hpath := iterate_path n s (List.getElem?_eq_some_iff.1 h).1
  rwa [leave_self h] at hpath

/-- **A turn is a path**, if the worker at the head of the queue is one of those that take part. -/
theorem step_path (hgoing : s.finished = false) (hworkers : ∀ w ∈ s.queue, w < s.remaining.length) :
    Path (none, s) s.step := by
  rcases hqueue : s.queue with _ | ⟨w, rest⟩
  · simp only [step, hqueue]
    exact (Move.ticks hqueue hgoing).path
  · have hlt : w < s.remaining.length := hworkers w (hqueue ▸ List.mem_cons_self)
    obtain ⟨n, hn⟩ : ∃ n, s.remaining[w]? = some n := ⟨_, List.getElem?_eq_getElem hlt⟩
    simp only [step, hqueue, runWorker, hn, Option.getD_some]
    rcases hholds : s.machine.handle? w with _ | h
    · rcases hwaits : s.machine.waiter? w with _ | p
      · exact .head (.starts hqueue hholds hwaits)
          (iterate_path_of_left (s := { s with queue := rest }) hn)
      · have hasks := Asks.again hqueue hholds (hwaits ▸ rfl)
        have hself := leave_self (s := { s with queue := rest }) hn
        rw [← hself, event_leave] at hasks
        exact carryOn_path (iterate_path n) hlt hasks
    · exact .head (.returns hqueue hholds)
        (iterate_path_of_left (s := { s with queue := rest }.release w) hn)

end Turn

end Simulation

end ConnPool
