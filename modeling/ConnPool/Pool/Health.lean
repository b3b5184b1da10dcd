/-
  Whether a connection is fit to be handed out or kept.

  A connection is healthy if the driver says that it is not closed.  If the pool probes, and the
  connection has been unused for longer than the configured span, the probe statement has to succeed
  as well, and what it may have changed is rolled back; a connection that fails the probe is closed at
  once.  A wrapper whose identity was taken away is never fit.
-/
import ConnPool.Pool.Basic

namespace ConnPool

namespace Drivers

/-- Runs the probe statement and leaves nothing of it behind. -/
def probe (D : Drivers σ) (config : PoolConfig) (conn : Conn) : Calls σ Unit := do
  D.call conn (.execute config.pingQuery)
  D.rollbackIfManual conn

/-- Whether a probe is due at `now`. -/
def probeDue (config : PoolConfig) (now : Instant) (c : Wrapper) : Bool :=
  config.pingEnabled && config.pingNotUsedFor < now - c.lastUsedAt

/-- Whether a connection is healthy, and the drivers afterwards. -/
def isHealthy (D : Drivers σ) (config : PoolConfig) (now : Instant) (c : Wrapper) (s : σ) :
    Bool × σ :=
  match D.call c.conn .isClosed s with
  | (.error _, s) => (false, s)
  | (.ok true, s) => (false, s)
  | (.ok false, s) =>
    if probeDue config now c then
      match D.probe config c.conn s with
      | (.ok (), s) => (true, s)
      | (.error _, s) => (false, quietly (D.call c.conn .close) s)
    else (true, s)

end Drivers

/-- Whether a wrapper is valid and its connection healthy. -/
def World.isFit (D : Drivers σ) (w : World σ) (c : Wrapper) : Bool × World σ :=
  if w.pool.valid.contains c.id then
    let (healthy, s) := D.isHealthy w.pool.config w.now c w.drivers
    (healthy, { w with drivers := s })
  else (false, w)

/-- Throws a bad connection away and counts it. -/
def World.reject (D : Drivers σ) (w : World σ) (c : Wrapper) : World σ :=
  (w.onPool (·.count fun k => { k with badConnections := k.badConnections + 1 })).discard D c

/-! ## Laws -/

/-- What an examination comes to: the driver does not say that the connection is open; or no probe is
    due; or the probe succeeds; or it fails, and the connection is closed. -/
theorem Drivers.isHealthy_cases (D : Drivers σ) (config : PoolConfig) (now : Instant) (c : Wrapper)
    (s : σ) :
    (∃ r s₁, D.call c.conn .isClosed s = (r, s₁) ∧ r ≠ .ok false ∧
      D.isHealthy config now c s = (false, s₁)) ∨
    (∃ s₁, D.call c.conn .isClosed s = (.ok false, s₁) ∧ probeDue config now c = false ∧
      D.isHealthy config now c s = (true, s₁)) ∨
    (∃ s₁ s₂, D.call c.conn .isClosed s = (.ok false, s₁) ∧ probeDue config now c = true ∧
      D.probe config c.conn s₁ = (.ok (), s₂) ∧ D.isHealthy config now c s = (true, s₂)) ∨
    (∃ s₁ e s₂, D.call c.conn .isClosed s = (.ok false, s₁) ∧ probeDue config now c = true ∧
      D.probe config c.conn s₁ = (.error e, s₂) ∧
      D.isHealthy config now c s = (false, quietly (D.call c.conn .close) s₂)) := by
  rcases hr : D.call c.conn .isClosed s with ⟨r, s₁⟩
  rcases r with e | closed
  · refine Or.inl ⟨.error e, s₁, rfl, nofun, ?_⟩
    simp only [isHealthy, hr]
  · cases closed with
    | true =>
      refine Or.inl ⟨.ok true, s₁, rfl, nofun, ?_⟩
      simp only [isHealthy, hr]
    | false =>
      rcases hdue : probeDue config now c with _ | _
      · refine Or.inr (Or.inl ⟨s₁, rfl, rfl, ?_⟩)
        simp only [isHealthy, hr, hdue, Bool.false_eq_true, if_false]
      · rcases hp : D.probe config c.conn s₁ with ⟨r, s₂⟩
        rcases r with e | u
        · refine Or.inr (Or.inr (Or.inr ⟨s₁, e, s₂, rfl, rfl, hp, ?_⟩))
          simp only [isHealthy, hr, hdue, if_true, hp]
        · refine Or.inr (Or.inr (Or.inl ⟨s₁, s₂, rfl, rfl, hp, ?_⟩))
          simp only [isHealthy, hr, hdue, if_true, hp]

namespace World

variable (D : Drivers σ) (w : World σ) (c : Wrapper)

/-- A valid wrapper is as fit as its connection is healthy, and one that is not valid is not fit. -/
theorem isFit_cases {w w' : World σ} {c : Wrapper} {fit : Bool} (h : w.isFit D c = (fit, w')) :
    (c.id ∈ w.pool.valid ∧
      D.isHealthy w.pool.config w.now c w.drivers = (fit, w'.drivers)) ∨
    (c.id ∉ w.pool.valid ∧ fit = false ∧ w' = w) := by
  unfold isFit at h
  by_cases hv : c.id ∈ w.pool.valid
  · rw [if_pos (List.contains_iff_mem.2 hv)] at h
    obtain ⟨rfl, rfl⟩ := Prod.mk.inj h
    exact Or.inl ⟨hv, rfl⟩
  · rw [if_neg fun hc => hv (List.contains_iff_mem.1 hc)] at h
    obtain ⟨rfl, rfl⟩ := Prod.mk.inj h
    exact Or.inr ⟨hv, rfl, rfl⟩

/-- An examination asks the drivers and changes nothing else. -/
theorem isFit_snd : (w.isFit D c).2 = { w with drivers := (w.isFit D c).2.drivers } := by
  unfold isFit
  split <;> rfl

theorem pool_of_isFit {w w' : World σ} {c : Wrapper} {fit : Bool}
    (h : w.isFit D c = (fit, w')) : w'.pool = w.pool := by
  obtain rfl : (w.isFit D c).2 = w' := congrArg Prod.snd h
  rw [isFit_snd]

theorem now_of_isFit {w w' : World σ} {c : Wrapper} {fit : Bool}
    (h : w.isFit D c = (fit, w')) : w'.now = w.now := by
  obtain rfl : (w.isFit D c).2 = w' := congrArg Prod.snd h
  rw [isFit_snd]

/-- Counting a bad connection and throwing it away may be done in either order. -/
theorem reject_eq : w.reject D c = (w.discard D c).onPool
    (·.count fun k => { k with badConnections := k.badConnections + 1 }) := rfl

@[simp] theorem reject_now : (w.reject D c).now = w.now := rfl

@[simp] theorem reject_pool : (w.reject D c).pool =
    (w.pool.count fun k => { k with badConnections := k.badConnections + 1 }).invalidate c.id := rfl

@[simp] theorem reject_drivers : (w.reject D c).drivers = D.giveUp c.conn w.drivers := rfl

end World

end ConnPool
