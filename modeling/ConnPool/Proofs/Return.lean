/-
  What the return of a handle can do.

  A handle whose wrapper is not out any more changes nothing but a counter.  One whose wrapper is out
  takes it off the active list, and then the connection is thrown away, kept or closed; these three,
  and the calls that decide between them, are all that there is (`takeBack_cases`, `checkIn_cases`).
  `TakesBack` is what this leaves of a pool.
-/
import ConnPool.Pool.Release
import ConnPool.Proofs.Pass

namespace ConnPool

namespace World

variable {σ : Type} (D : Drivers σ)

/-! ## The three ends -/

@[simp] theorem keep_now (w : World σ) (c : Wrapper) : (w.keep c).now = w.now := rfl

/-- A connection that is kept loses its old wrapper and joins the idle list under a new one. -/
theorem keep_pool (w : World σ) (c : Wrapper) : (w.keep c).pool =
    { (w.pool.enroll (w.pool.rewrapped c w.now)).invalidate c.id with
      idle := w.pool.idle ++ [w.pool.rewrapped c w.now] } := rfl

@[simp] theorem keep_drivers (w : World σ) (c : Wrapper) : (w.keep c).drivers = w.drivers := rfl

@[simp] theorem close_now (w : World σ) (c : Wrapper) : (w.close D c).now = w.now := rfl

@[simp] theorem close_pool (w : World σ) (c : Wrapper) :
    (w.close D c).pool = w.pool.invalidate c.id := rfl

@[simp] theorem close_drivers (w : World σ) (c : Wrapper) :
    (w.close D c).drivers = Drivers.quietly (D.call c.conn .close) w.drivers := rfl

/-! ## A return -/

/-- The world in which a healthy return has been counted, the connection having been out for its age. -/
def countedBack (w : World σ) (c : Wrapper) : World σ :=
  w.onPool (·.count fun k => { k with checkoutTime := k.checkoutTime + (w.now - c.checkoutAt) })

/-- A connection that came back is thrown away if it is not fit; else it is rolled back, and then kept
    or closed. -/
theorem takeBack_cases (w : World σ) (c : Wrapper) :
    (∃ w₁, w.isFit D c = (false, w₁) ∧ w.takeBack D c = w₁.reject D c) ∨
    (∃ w₁ w₂, w.isFit D c = (true, w₁) ∧
      (w₁.countedBack c).run (D.rollbackIfManual c.conn) = (.ok (), w₂) ∧
      w₂.pool.keeps c = true ∧ w.takeBack D c = w₂.keep c) ∨
    (∃ w₁ r w₂, w.isFit D c = (true, w₁) ∧
      (w₁.countedBack c).run (D.rollbackIfManual c.conn) = (r, w₂) ∧
      (r = .ok () → w₂.pool.keeps c = false) ∧ w.takeBack D c = w₂.close D c) := by
  rcases hfit : w.isFit D c with ⟨fit, w₁⟩
  cases fit with
  | false =>
    refine Or.inl ⟨w₁, rfl, ?_⟩
    simp only [takeBack, hfit]
  | true =>
    rcases hr : (w₁.countedBack c).run (D.rollbackIfManual c.conn) with ⟨r, w₂⟩
    have hr' : (w₁.onPool (·.count fun k =>
        { k with checkoutTime := k.checkoutTime + (w₁.now - c.checkoutAt) })).run
        (D.rollbackIfManual c.conn) = (r, w₂) := hr
    cases r with
    | error e =>
      refine Or.inr (Or.inr ⟨w₁, .error e, w₂, rfl, hr, nofun, ?_⟩)
      simp only [takeBack, hfit, hr']
    | ok u =>
      by_cases hk : w₂.pool.keeps c = true
      · refine Or.inr (Or.inl ⟨w₁, w₂, rfl, hr, hk, ?_⟩)
        simp only [takeBack, hfit, hr', if_pos hk]
      · refine Or.inr (Or.inr ⟨w₁, .ok u, w₂, rfl, hr, fun _ => Bool.eq_false_iff.2 hk, ?_⟩)
        simp only [takeBack, hfit, hr', if_neg hk]

/-- The pool on which it is decided what becomes of a connection that came back. -/
theorem pool_of_countedBack {w w₁ w₂ : World σ} {c : Wrapper} {fit : Bool}
    {r : Except ConnectionError Unit} (hfit : w.isFit D c = (fit, w₁))
    (hr : (w₁.countedBack c).run (D.rollbackIfManual c.conn) = (r, w₂)) :
    w₂.pool = w.pool.count fun k =>
      { k with checkoutTime := k.checkoutTime + (w.now - c.checkoutAt) } := by
  have hp : w₂.pool = (w₁.countedBack c).pool := congrArg (·.2.pool) hr.symm
  rw [hp, countedBack, onPool_pool, pool_of_isFit D hfit, now_of_isFit D hfit]

/-- A handle gives back the wrapper with its identity, if that is out. -/
theorem checkIn_cases (w : World σ) (id : Nat) :
    ((∀ c ∈ w.pool.active, c.id ≠ id) ∧ w.checkIn D id =
      w.onPool (·.count fun k => { k with badConnections := k.badConnections + 1 })) ∨
    (∃ c front back, w.pool.active = front ++ c :: back ∧ c.id = id ∧
      (∀ c' ∈ front, c'.id ≠ id) ∧
      w.checkIn D id = (w.onPool fun p => { p with active := front ++ back }).takeBack D c) := by
  cases hf : w.pool.active.find? (fun c => c.id = id) with
  | none =>
    refine Or.inl ⟨?_, ?_⟩
    · intro c hc
      simpa using List.find?_eq_none.1 hf c hc
    · simp only [checkIn, hf]
  | some c =>
    obtain ⟨hid, front, back, ha, hfront⟩ := List.find?_eq_some_iff_append.1 hf
    have hid : c.id = id := by simpa using hid
    have hfront : ∀ c' ∈ front, c'.id ≠ id := fun c' hc' => by simpa using hfront c' hc'
    refine Or.inr ⟨c, front, back, ha, hid, hfront, ?_⟩
    have herase : w.pool.active.eraseP (fun c => c.id = id) = front ++ back := by
      rw [ha, List.eraseP_append_right _ (by simpa using hfront), List.eraseP_cons_of_pos (by simpa)]
    simp only [checkIn, hf]
    rw [← herase]
    rfl

/-- What a return adds to the idle list, if anything, is what was out under the identity, wrapped
    anew. -/
theorem idle_of_checkIn (w : World σ) (id : Nat) : (w.checkIn D id).pool.idle = w.pool.idle ∨
    ∃ c ∈ w.pool.active, c.id = id ∧ w.pool.keeps c = true ∧
      (w.checkIn D id).pool.idle = w.pool.idle ++ [w.pool.rewrapped c w.now] := by
  rcases w.checkIn_cases D id with ⟨-, e⟩ | ⟨c, front, back, ha, hid, -, e⟩
  · rw [e]
    exact Or.inl rfl
  · rw [e]
    rcases takeBack_cases D (w.onPool fun p => { p with active := front ++ back }) c with
      ⟨w₁, hfit, e⟩ | ⟨w₁, w₂, hfit, hr, hk, e⟩ | ⟨w₁, r, w₂, hfit, hr, -, e⟩
    · rw [e, reject_pool, pool_of_isFit D hfit]
      exact Or.inl rfl
    · have hc : c ∈ w.pool.active := by
        rw [ha]
        exact List.mem_append_right _ List.mem_cons_self
      have hnow : w₂.now = w.now := by
        obtain rfl := congrArg Prod.snd hr
        rw [run_now, countedBack, onPool_now, now_of_isFit D hfit, onPool_now]
      rw [e, keep_pool, hnow]
      rw [pool_of_countedBack D hfit hr] at hk ⊢
      exact Or.inr ⟨c, hc, hid, hk, rfl⟩
    · rw [e, close_pool, pool_of_countedBack D hfit hr]
      exact Or.inl rfl

/-- A return takes no time. -/
theorem checkIn_now (w : World σ) (id : Nat) : (w.checkIn D id).now = w.now := by
  rcases w.checkIn_cases D id with ⟨-, e⟩ | ⟨c, front, back, -, -, -, e⟩
  · rw [e, onPool_now]
  · rw [e]
    rcases takeBack_cases D (w.onPool fun p => { p with active := front ++ back }) c with
      ⟨w₁, hfit, e⟩ | ⟨w₁, w₂, hfit, hr, -, e⟩ | ⟨w₁, r, w₂, hfit, hr, -, e⟩
    · rw [e, reject_now, now_of_isFit D hfit, onPool_now]
    · obtain rfl := congrArg Prod.snd hr
      rw [e, keep_now, run_now, countedBack, onPool_now, now_of_isFit D hfit, onPool_now]
    · obtain rfl := congrArg Prod.snd hr
      rw [e, close_now, run_now, countedBack, onPool_now, now_of_isFit D hfit, onPool_now]

end World

/-! ## What is left of the lists -/

/-- What a return leaves of a pool: wrappers leave the active list, and if one did, one that is new may
    join the idle list while there is room for it. -/
structure Pool.TakesBack (p p' : Pool) : Prop extends Pool.SameTerms p p' where
  active : p'.active.Sublist p.active
  idle : p'.idle = p.idle ∨ ∃ c, p'.idle = p.idle ++ [c] ∧ p.nextWrapper ≤ c.id ∧
    p.idle.length < p.config.maxIdle ∧ p'.active.length < p.active.length

/-- **What a return does to a pool.** -/
theorem World.checkIn_takesBack {σ : Type} (D : Drivers σ) (w : World σ) (id : Nat) :
    w.pool.TakesBack (w.checkIn D id).pool := by
  rcases w.checkIn_cases D id with ⟨-, e⟩ | ⟨c, front, back, ha, -, -, e⟩
  · rw [e]
    exact ⟨⟨rfl, rfl, rfl, rfl, Nat.le_refl _⟩, List.Sublist.refl _, Or.inl rfl⟩
  · have hsub : (front ++ back).Sublist w.pool.active := by
      rw [ha]
      exact (List.sublist_cons_self c back).append_left front
    rw [e]
    rcases takeBack_cases D (w.onPool fun p => { p with active := front ++ back }) c with
      ⟨w₁, hfit, e⟩ | ⟨w₁, w₂, hfit, hr, hk, e⟩ | ⟨w₁, r, w₂, hfit, hr, -, e⟩
    · rw [e, reject_pool, pool_of_isFit D hfit]
      exact ⟨⟨rfl, rfl, rfl, rfl, Nat.le_refl _⟩, hsub, Or.inl rfl⟩
    · rw [e, keep_pool]
      rw [pool_of_countedBack D hfit hr] at hk ⊢
      have hroom : w.pool.idle.length < w.pool.config.maxIdle := by
        simp only [Pool.keeps, Bool.and_eq_true, decide_eq_true_eq] at hk
        exact hk.1
      have hless : (front ++ back).length < w.pool.active.length := by
        rw [ha, List.length_append, List.length_append, List.length_cons]
        omega
      exact ⟨⟨rfl, rfl, rfl, rfl, Nat.le_succ _⟩, hsub,
        Or.inr ⟨_, rfl, Nat.le_refl _, hroom, hless⟩⟩
    · rw [e, close_pool, pool_of_countedBack D hfit hr]
      exact ⟨⟨rfl, rfl, rfl, rfl, Nat.le_refl _⟩, hsub, Or.inl rfl⟩

end ConnPool
