/-
  Runs of a pool in use, and what they preserve.

  The pool and those who hold its connections call the same drivers.  To tell afterwards who made a
  call, a run can give them two views of the drivers, `P` for the pool and `H` for the holders
  (`stepAs`, `runAs`); with one view for both these are the steps and the runs of the machine itself
  (`stepAs_self`, `runAs_self`).  Whatever is said here holds of every pair of views.

  Two things are done once.  The lemmas `pass_cases`, `use_cases`, `resume_cases`, `lookAt_cases`,
  `look_cases` and `release_cases` list what each thing that somebody does comes to.  `Kept` collects
  what a property of worlds has to survive, one field for each thing that an event can do to a world;
  then it survives every event (`stepAs_kept`), and `runAs_rule` takes it through a run.  What depends on
  the configuration may be `KeptBetween` its changes only.
-/
import ConnPool.Pool.Machine
import ConnPool.Proofs.Pass
import ConnPool.Proofs.Return
import Mathlib.Data.List.Induction

namespace ConnPool

variable {σ : Type}

/-! ## Steps and runs with two views of the drivers -/

/-- The view of the drivers that an event works with: a use is the holder's, all else the pool's. -/
def Event.view (P H : Drivers σ) : Event σ → Drivers σ
  | .use _ _ => H
  | _ => P

namespace Machine

/-- One event, the pool calling its drivers through `P` and holders calling theirs through `H`. -/
def stepAs (P H : Drivers σ) (m : Machine σ) (e : Event σ) : Outcome × Machine σ :=
  if m.admits e then
    let (o, m) := m.react (e.view P H) e
    (o, m.settle P)
  else (.nothing, m)

/-- A run, the pool calling its drivers through `P` and holders calling theirs through `H`. -/
def runAs (P H : Drivers σ) (m : Machine σ) : List (Event σ) → List Outcome × Machine σ
  | [] => ([], m)
  | e :: es =>
    let (o, m) := m.stepAs P H e
    let (os, m) := m.runAs P H es
    (o :: os, m)

theorem stepAs_self (D : Drivers σ) (m : Machine σ) (e : Event σ) :
    m.stepAs D D e = m.step D e := by
  cases e <;> rfl

theorem runAs_self (D : Drivers σ) : ∀ (es : List (Event σ)) (m : Machine σ),
    m.runAs D D es = m.runAll D es
  | [], _ => rfl
  | e :: es, m => by
    simp only [runAs, runAll, stepAs_self, runAs_self D es]

theorem runAs_cons (P H : Drivers σ) (m : Machine σ) (e : Event σ) (es : List (Event σ)) :
    m.runAs P H (e :: es) =
      ((m.stepAs P H e).1 :: ((m.stepAs P H e).2.runAs P H es).1,
        ((m.stepAs P H e).2.runAs P H es).2) := rfl

/-- A run goes on with one more event. -/
theorem runAs_concat (P H : Drivers σ) : ∀ (es : List (Event σ)) (m : Machine σ) (e : Event σ),
    m.runAs P H (es ++ [e]) =
      ((m.runAs P H es).1 ++ [((m.runAs P H es).2.stepAs P H e).1],
        ((m.runAs P H es).2.stepAs P H e).2)
  | [], _, _ => rfl
  | e' :: es, m, e => by
    rw [List.cons_append, runAs_cons, runAs_concat P H es, runAs_cons]
    rfl

/-- **The rule of runs.**  What holds at the start, of what has been seen so far and of the machine, and
    survives every event of the run, holds at its end. -/
theorem runAs_rule (P H : Drivers σ) {J : List Outcome → Machine σ → Prop} {m : Machine σ}
    (es : List (Event σ)) (start : J [] m)
    (step : ∀ os m, ∀ e ∈ es, J os m → J (os ++ [(m.stepAs P H e).1]) (m.stepAs P H e).2) :
    J (m.runAs P H es).1 (m.runAs P H es).2 := by
  induction es using List.reverseRecOn with
  | nil => exact start
  | append_singleton es e ih =>
    have hes : J (m.runAs P H es).1 (m.runAs P H es).2 :=
      ih fun os m e' he' => step os m e' (List.mem_append_left _ he')
    rw [runAs_concat]
    exact step _ _ e (by simp) hes

/-! ## A pass of the machine -/

/-- The acquisition of a pass is refused because the pool is shut down, is handed a connection, fails,
    waits, or breaks off. -/
theorem pass_cases (D : Drivers σ) (m : Machine σ) (key : Key) (a : Acquisition) :
    (m.world.pool.closed = true ∧
      m.pass D key a = (.refused (if a.waited then .cancelled else .closed), m)) ∨
    (m.world.pool.closed = false ∧ ∃ budget,
      (∃ h w, m.world.tryOut D a.who a.startedAt budget a.rejected = (.handedOut h, w) ∧
        m.pass D key a = (.acquired h, { m with world := w, handles := m.handles ++ [(key, h)] })) ∨
      (∃ e w, m.world.tryOut D a.who a.startedAt budget a.rejected = (.failed e, w) ∧
        m.pass D key a = (.refused e, { m with world := w })) ∨
      (∃ r w f, m.world.tryOut D a.who a.startedAt budget a.rejected = (.mustWait r, w) ∧
        m.pass D key a = (.waiting, { m with
          world := w.onPool (·.count f)
          waiters := m.waiters ++ [(key, {
            acquisition := { a with waited := true, rejected := r }
            since := w.now
            slice := w.pool.config.timeToWait })] })) ∨
      (∃ w, m.world.tryOut D a.who a.startedAt budget a.rejected = (.overflowed, w) ∧
        m.pass D key a = (.overflowed, { m with world := w }))) := by
  cases hc : m.world.pool.closed with
  | true =>
    refine Or.inl ⟨rfl, ?_⟩
    simp only [pass, hc, if_true]
  | false =>
    refine Or.inr ⟨rfl, m.world.pool.config.badBudget - a.rejected, ?_⟩
    rcases ht : m.world.tryOut D a.who a.startedAt (m.world.pool.config.badBudget - a.rejected)
      a.rejected with ⟨r, w⟩
    cases r with
    | handedOut h =>
      refine Or.inl ⟨h, w, rfl, ?_⟩
      simp only [pass, hc, ht, Bool.false_eq_true, if_false]
    | failed e =>
      refine Or.inr (Or.inl ⟨e, w, rfl, ?_⟩)
      simp only [pass, hc, ht, Bool.false_eq_true, if_false]
    | mustWait r =>
      refine Or.inr (Or.inr (Or.inl ?_))
      by_cases hw : a.waited = true
      · refine ⟨r, w, id, rfl, ?_⟩
        simp only [pass, hc, ht, hw, Bool.false_eq_true, if_false, if_true]
        rfl
      · refine ⟨r, w, fun k => { k with hadToWait := k.hadToWait + 1 }, rfl, ?_⟩
        simp only [pass, hc, ht, hw, Bool.false_eq_true, if_false]
        rfl
    | overflowed =>
      refine Or.inr (Or.inr (Or.inr ⟨w, rfl, ?_⟩))
      simp only [pass, hc, ht, Bool.false_eq_true, if_false]

/-! ## A use of a handle -/

/-- A use does nothing without a handle, is refused by a handle that is not valid, and is a call on the
    handle's connection otherwise. -/
theorem use_cases (D : Drivers σ) (m : Machine σ) (key : Key) (call : RawCall) :
    (m.handle? key = none ∧ m.use D key call = (.nothing, m)) ∨
    (∃ h, m.handle? key = some h ∧ h.id ∉ m.world.pool.valid ∧
      m.use D key call = (.refused (.invalidConnection h.id), m)) ∨
    (∃ h o, m.handle? key = some h ∧ h.id ∈ m.world.pool.valid ∧
      m.use D key call = (o, { m with world := (m.world.run (D.call h.conn call)).2 }) ∧
      ∀ h', o ≠ .acquired h') := by
  cases hk : m.handle? key with
  | none => exact Or.inl ⟨rfl, by simp only [use, hk]⟩
  | some h =>
    by_cases hv : h.id ∈ m.world.pool.valid
    · rcases hr : m.world.run (D.call h.conn call) with ⟨r, w⟩
      have hc : m.world.pool.valid.contains h.id = true := List.contains_iff_mem.2 hv
      cases r with
      | error e =>
        refine Or.inr (Or.inr ⟨h, .refused (.connection e), rfl, hv, ?_, nofun⟩)
        simp only [use, hk, hc, hr, if_true]
      | ok answer =>
        refine Or.inr (Or.inr ⟨h, .answered (call.report answer), rfl, hv, ?_, nofun⟩)
        simp only [use, hk, hc, hr, if_true]
    · have hc : m.world.pool.valid.contains h.id = false := by simpa using hv
      refine Or.inr (Or.inl ⟨h, rfl, hv, ?_⟩)
      simp only [use, hk, hc, Bool.false_eq_true, if_false]

/-! ## The other things that somebody does -/

/-- An acquisition is resumed by a pass if it waits and is due; the time that it waited is counted. -/
theorem resume_cases (D : Drivers σ) (m : Machine σ) (key : Key) :
    (∃ o, m.resume D key = (o, m) ∧ ∀ h, o ≠ .acquired h) ∨
    (∃ p f, m.waiter? key = some p ∧ m.resume D key =
      ({ m with
        waiters := without key m.waiters
        world := m.world.onPool (·.count f) }).pass D key p.acquisition) := by
  cases hk : m.waiter? key with
  | none => exact Or.inl ⟨.nothing, by simp only [resume, hk], nofun⟩
  | some p =>
    by_cases hd : p.due m.world.now = true
    · refine Or.inr ⟨p, fun k => { k with waitTime := k.waitTime + (m.world.now - p.since) }, rfl, ?_⟩
      simp only [resume, hk, hd, if_true]
      rfl
    · refine Or.inl ⟨.waiting, ?_, nofun⟩
      simp only [resume, hk, hd, Bool.false_eq_true, if_false]

/-- A look ends the shutdown, throwing away every connection, or is followed by another. -/
theorem lookAt_cases (D : Drivers σ) (m : Machine σ) (key : Key) (deadline : Instant) :
    (∃ out, m.lookAt D key deadline = (.shutDown out, m.onWorld (·.invalidateAll D))) ∨
    (∃ drain, m.lookAt D key deadline =
      (.draining, { m with drains := m.drains ++ [(key, drain)] })) := by
  unfold lookAt
  dsimp only
  split
  · exact Or.inl ⟨_, rfl⟩
  · exact Or.inr ⟨_, rfl⟩

/-- A shutdown looks again if it waits and it is time to. -/
theorem look_cases (D : Drivers σ) (m : Machine σ) (key : Key) :
    (∃ o, m.look D key = (o, m) ∧ ∀ h, o ≠ .acquired h) ∨
    (∃ d, m.drain? key = some d ∧ m.look D key =
      ({ m with drains := without key m.drains }).lookAt D key d.deadline) := by
  cases hk : m.drain? key with
  | none => exact Or.inl ⟨.nothing, by simp only [look, hk], nofun⟩
  | some d =>
    by_cases hd : d.nextLook ≤ m.world.now
    · exact Or.inr ⟨d, rfl, by simp only [look, hk, if_pos hd]⟩
    · exact Or.inl ⟨.draining, by simp only [look, hk, if_neg hd], nofun⟩

/-- A handle that is out is taken back, and all who wait are woken. -/
theorem release_cases (D : Drivers σ) (m : Machine σ) (key : Key) :
    (m.handle? key = none ∧ m.release D key = m) ∨
    (∃ h, m.handle? key = some h ∧ m.release D key =
      ({ m with
        handles := without key m.handles
        world := m.world.checkIn D h.id }).wakeAll) := by
  cases hk : m.handle? key with
  | none => exact Or.inl ⟨rfl, by simp only [release, hk]⟩
  | some h => exact Or.inr ⟨h, rfl, by simp only [release, hk]; rfl⟩

/-! ## What every event preserves -/

end Machine

/-- A property of worlds that survives everything that the pool, its clock and its holders do while
    the configuration stays as it is. -/
structure World.KeptBetween (P H : Drivers σ) (I : World σ → Prop) : Prop where
  count : ∀ {w} f, I w → I (w.onPool (·.count f))
  tryOut : ∀ {w} who startedAt budget r, I w → I (w.tryOut P who startedAt budget r).2
  checkIn : ∀ {w} id, I w → I (w.checkIn P id)
  invalidateAll : ∀ {w}, I w → I (w.invalidateAll P)
  tolerate : ∀ {w} n, I w → I (w.onPool (·.onConfig ({ · with badConnectionTolerance := n })))
  shut : ∀ {w}, I w → I (w.onPool fun p => { p with closed := true })
  advance : ∀ {w} d, I w → I { w with now := w.now + d }
  call : ∀ {w} conn call, I w → I (w.run (H.call conn call)).2

/-- A property of worlds that survives changes of the configuration as well. -/
structure World.Kept (P H : Drivers σ) (I : World σ → Prop) : Prop extends
    World.KeptBetween P H I where
  reconfigure : ∀ {w} change, I w → I (w.reconfigure P change)

namespace Machine

variable {P H : Drivers σ} {I : World σ → Prop}

theorem pass_kept (hI : World.KeptBetween P H I) (m : Machine σ) (key : Key) (a : Acquisition)
    (h : I m.world) : I (m.pass P key a).2.world := by
  rcases m.pass_cases P key a with ⟨-, e⟩ | ⟨-, budget, h' | h' | h' | h'⟩
  · rw [e]
    exact h
  · obtain ⟨hd, w, ht, e⟩ := h'
    have hw := hI.tryOut a.who a.startedAt budget a.rejected h
    rw [ht] at hw
    rw [e]
    exact hw
  · obtain ⟨err, w, ht, e⟩ := h'
    have hw := hI.tryOut a.who a.startedAt budget a.rejected h
    rw [ht] at hw
    rw [e]
    exact hw
  · obtain ⟨r, w, f, ht, e⟩ := h'
    have hw := hI.tryOut a.who a.startedAt budget a.rejected h
    rw [ht] at hw
    rw [e]
    exact hI.count f hw
  · obtain ⟨w, ht, e⟩ := h'
    have hw := hI.tryOut a.who a.startedAt budget a.rejected h
    rw [ht] at hw
    rw [e]
    exact hw

theorem lookAt_kept (hI : World.KeptBetween P H I) (m : Machine σ) (key : Key) (deadline : Instant)
    (h : I m.world) : I (m.lookAt P key deadline).2.world := by
  rcases m.lookAt_cases P key deadline with ⟨out, e⟩ | ⟨drain, e⟩
  · rw [e]
    exact hI.invalidateAll h
  · rw [e]
    exact h

theorem settle_kept (hI : World.KeptBetween P H I) (m : Machine σ) (h : I m.world) :
    I (m.settle P).world := by
  unfold settle
  split
  · exact hI.invalidateAll h
  · exact h

/-- What an event does keeps what is kept. -/
theorem react_keptBetween (hI : World.KeptBetween P H I) (m : Machine σ) (e : Event σ)
    (reconfigure : ∀ change, e = .reconfigure change → ∀ w, I w → I (w.reconfigure P change))
    (disturb : ∀ change, e = .disturb change → ∀ w, I w → I (w.onDrivers change))
    (h : I m.world) : I (m.react (e.view P H) e).2.world := by
  cases e with
  | acquire key who => exact pass_kept hI m key _ h
  | resume key =>
    show I (m.resume P key).2.world
    rcases m.resume_cases P key with ⟨o, e, -⟩ | ⟨p, f, -, e⟩
    · rw [e]
      exact h
    · rw [e]
      exact pass_kept hI _ key _ (hI.count f h)
  | abandon key => exact h
  | release key =>
    show I (m.release P key).world
    rcases m.release_cases P key with ⟨-, e⟩ | ⟨hd, -, e⟩
    · rw [e]
      exact h
    · rw [e]
      exact hI.checkIn hd.id h
  | use key call =>
    show I (m.use H key call).2.world
    rcases m.use_cases H key call with ⟨-, e⟩ | ⟨hd, -, -, e⟩ | ⟨hd, o, -, -, e, -⟩
    · rw [e]
      exact h
    · rw [e]
      exact h
    · rw [e]
      exact hI.call _ _ h
  | reconfigure change => exact reconfigure change rfl m.world h
  | setTolerance n => exact hI.tolerate n h
  | shutDown key => exact lookAt_kept hI _ key _ (hI.shut h)
  | look key =>
    show I (m.look P key).2.world
    rcases m.look_cases P key with ⟨o, e, -⟩ | ⟨d, -, e⟩
    · rw [e]
      exact h
    · rw [e]
      exact lookAt_kept hI _ key _ h
  | advance d => exact hI.advance d h
  | disturb change => exact disturb change rfl m.world h
  | letGo => exact h

/-- **Every event keeps what is kept**: an event is made of the things that `KeptBetween` lists, of
    changes of the configuration, and of what the drivers do by themselves. -/
theorem stepAs_keptBetween (hI : World.KeptBetween P H I) (m : Machine σ) (e : Event σ)
    (reconfigure : ∀ change, e = .reconfigure change → ∀ w, I w → I (w.reconfigure P change))
    (disturb : ∀ change, e = .disturb change → ∀ w, I w → I (w.onDrivers change))
    (h : I m.world) : I (m.stepAs P H e).2.world := by
  unfold stepAs
  split
  case isFalse => exact h
  case isTrue => exact settle_kept hI _ (react_keptBetween hI m e reconfigure disturb h)

theorem stepAs_kept (hI : World.Kept P H I) (m : Machine σ) (e : Event σ)
    (disturb : ∀ change, e = .disturb change → ∀ w, I w → I (w.onDrivers change))
    (h : I m.world) : I (m.stepAs P H e).2.world :=
  stepAs_keptBetween hI.toKeptBetween m e (fun change _ _ hw => hI.reconfigure change hw) disturb h

end Machine

end ConnPool
