/-
  The two lists stay within the limits.

  A pool `Fits` if the idle list is no longer than `maxIdle`, and if the active and the idle list
  together are no longer than `maxActive`.  The second is more than the pool ever checks: a connection
  is taken from the idle list without a look at `maxActive`, and put there without one.  It holds since
  a connection is opened only when nothing is idle, and since every other move takes a connection from
  one of the lists before it adds one.

  While a pass has a candidate in hand the lists are one short of the limit (`takeCandidate_fits`), so
  the candidate can join either.  `Kept` takes this through every event: a change of the limits empties
  both lists, and nothing else lengthens one without shortening the other.
-/
import ConnPool.Proofs.Run

namespace ConnPool

/-- The lists of a pool are within its limits. -/
structure Pool.Fits (p : Pool) : Prop where
  idle : p.idle.length ≤ p.config.maxIdle
  total : p.active.length + p.idle.length ≤ p.config.maxActive

/-- A new pool is empty. -/
theorem Pool.fits_new (source : Source) (config : PoolConfig) : (Pool.new source config).Fits :=
  ⟨Nat.zero_le _, Nat.zero_le _⟩

namespace World

variable {σ : Type} (D : Drivers σ)

/-! ## A pass -/

/-- A search that finds something keeps within the limits, and leaves room for what it found. -/
theorem takeCandidate_fits {w w' : World σ} {who : Credentials} {c : Wrapper}
    (h : w.takeCandidate D who = (.found c, w')) (hw : w.pool.Fits) :
    w'.pool.Fits ∧ w'.pool.active.length + w'.pool.idle.length < w'.pool.config.maxActive := by
  have htotal := hw.total
  have hidle := hw.idle
  rcases takeCandidate_found D h with ⟨rest, hi, rfl⟩ | ⟨hi, hlt, rfl, s, hs, rfl⟩ |
    ⟨hi, oldest, rest, ha, hle, hover, rfl, rfl⟩
  · -- a connection that came back is in hand, and the idle list one shorter
    rw [hi, List.length_cons] at htotal hidle
    have hroom : w.pool.active.length + rest.length < w.pool.config.maxActive := by omega
    exact ⟨⟨show rest.length ≤ w.pool.config.maxIdle by omega, Nat.le_of_lt hroom⟩, hroom⟩
  · -- a connection was opened: nothing is idle
    refine ⟨⟨hw.idle, hw.total⟩, ?_⟩
    show w.pool.active.length + w.pool.idle.length < w.pool.config.maxActive
    rw [hi, List.length_nil]
    omega
  · -- the oldest is in hand, and the active list one shorter
    rw [ha, List.length_cons] at htotal
    have hroom : rest.length + w.pool.idle.length < w.pool.config.maxActive := by omega
    exact ⟨⟨hw.idle, Nat.le_of_lt hroom⟩, hroom⟩

theorem takeCandidate_failed_fits {w w' : World σ} {who : Credentials} {e : PoolError}
    (h : w.takeCandidate D who = (.failed e, w')) (hw : w.pool.Fits) : w'.pool.Fits := by
  rcases takeCandidate_failed D h with ⟨hi, hlt, cause, s, hs, rfl, rfl⟩ | ⟨hi, ha, hz, -, rfl⟩
  · exact ⟨hw.idle, hw.total⟩
  · exact hw

/-- A pass keeps within the limits. -/
theorem tryOut_fits (who : Credentials) (startedAt : Instant) (budget r : Nat) {w : World σ}
    (hw : w.pool.Fits) : (w.tryOut D who startedAt budget r).2.pool.Fits := by
  refine tryOut_rule D (I := fun _ w => w.pool.Fits) (Q := fun _ w => w.pool.Fits)
    ?_ ?_ ?_ ?_ ?_ ?_ budget r w hw
  · intro r w e w' hw ht
    exact takeCandidate_failed_fits D ht hw
  · intro r w w' hw ht
    rw [(takeCandidate_mustWait D ht).1]
    exact hw
  · intro r w c w₁ w₂ hw ht hg
    obtain ⟨hfits, hroom⟩ := takeCandidate_fits D ht hw
    rw [handOut_pool, pool_of_isGood D hg]
    refine ⟨hfits.idle, ?_⟩
    show (w₁.pool.active ++ [_]).length + w₁.pool.idle.length ≤ w₁.pool.config.maxActive
    rw [List.length_append, List.length_singleton]
    omega
  · intro r w c w₁ w₂ hw ht hg
    have hfits := (takeCandidate_fits D ht hw).1
    rw [reject_pool, pool_of_isGood D hg]
    exact ⟨hfits.idle, hfits.total⟩
  · intro r w hw
    exact hw
  · intro r w hw
    exact hw

/-! ## Returns and changes of the configuration -/

/-- A return keeps within the limits: a connection leaves the active list before it joins the other. -/
theorem checkIn_fits {w : World σ} (id : Nat) (hw : w.pool.Fits) : (w.checkIn D id).pool.Fits := by
  have hback := w.checkIn_takesBack D id
  have hactive := hback.active.length_le
  have htotal := hw.total
  constructor
  · rw [hback.config]
    rcases hback.idle with hidle | ⟨c, hidle, -, hroom, -⟩
    · rw [hidle]
      exact hw.idle
    · rw [hidle, List.length_append, List.length_singleton]
      exact hroom
  · rw [hback.config]
    rcases hback.idle with hidle | ⟨c, hidle, -, -, hless⟩
    · rw [hidle]
      omega
    · rw [hidle, List.length_append, List.length_singleton]
      omega

/-- An empty pool is within any limits. -/
theorem invalidateAll_fits (w : World σ) : (w.invalidateAll D).pool.Fits := by
  rw [invalidateAll_pool]
  exact ⟨Nat.zero_le _, Nat.zero_le _⟩

/-- **Within the limits for ever**: everything that can happen to a pool keeps it within its limits. -/
theorem fits_kept (P H : Drivers σ) : World.Kept P H fun w => w.pool.Fits where
  count _ h := ⟨h.idle, h.total⟩
  tryOut who startedAt budget r h := tryOut_fits P who startedAt budget r h
  checkIn id h := checkIn_fits P id h
  invalidateAll _ := invalidateAll_fits P _
  reconfigure _ _ := invalidateAll_fits P _
  tolerate _ h := ⟨h.idle, h.total⟩
  shut h := ⟨h.idle, h.total⟩
  advance _ h := h
  call _ _ h := h

end World

end ConnPool
