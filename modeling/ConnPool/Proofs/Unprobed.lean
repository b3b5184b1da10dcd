/-
  What a pool leaves alone that does not probe.

  What an action does to drivers is said by `Calls.Runs`: it keeps a property of their state, and it is
  sure to succeed under a condition.  This goes through binds, so what is known of single calls is known
  of all that a pool does with a connection.  A pool that does not probe runs no statement by itself, so
  it leaves alone what only statements change (`World.unprobed_ledger`).
-/
import ConnPool.Proofs.Ledger

namespace ConnPool

variable {σ α β : Type}

/-! ## What an action keeps -/

/-- The action keeps a property of the drivers, and is sure to succeed under a condition. -/
def Calls.Runs (I : σ → Prop) (sure : Prop) (action : Calls σ α) : Prop :=
  ∀ s, I s → I (action s).2 ∧ (sure → ∃ a, (action s).1 = .ok a)

/-- A call that neither closes the connection nor runs a statement. -/
def RawCall.Gentle (call : RawCall) : Prop :=
  call ≠ .close ∧ ∀ statement, call ≠ .execute statement

section Runs

variable {I : σ → Prop} {sure : Prop} {D : Drivers σ} {conn : Conn}

theorem Calls.runs_pure (a : α) : Runs I sure (pure a : Calls σ α) :=
  fun _ h => ⟨h, fun _ => ⟨a, rfl⟩⟩

theorem Calls.runs_bind {action : Calls σ α} {f : α → Calls σ β} (h : Runs I sure action)
    (hf : ∀ a, Runs I sure (f a)) : Runs I sure (action >>= f) := by
  intro s hs
  obtain ⟨hkept, hsure⟩ := h s hs
  rw [bind_run]
  rcases hr : action s with ⟨r, t⟩
  rw [hr] at hkept hsure
  cases r with
  | error e => exact ⟨hkept, fun h => nomatch (hsure h).choose_spec⟩
  | ok a => exact hf a t hkept

theorem Drivers.runs_rollbackIfManual
    (h : ∀ call : RawCall, call.Gentle → Calls.Runs I sure (D.call conn call)) :
    Calls.Runs I sure (D.rollbackIfManual conn) := by
  refine Calls.runs_bind (h .autoCommit ⟨nofun, nofun⟩) fun automatic => ?_
  cases automatic with
  | true => exact Calls.runs_pure ()
  | false => exact h .rollback ⟨nofun, nofun⟩

theorem SourceConfig.runs_configure (c : SourceConfig)
    (h : ∀ call : RawCall, call.Gentle → Calls.Runs I sure (D.call conn call)) :
    Calls.Runs I sure (c.configure D conn) := by
  refine Calls.runs_bind ?_ fun _ => Calls.runs_bind ?_ fun _ => ?_
  · unfold setTimeout
    split
    · exact h _ ⟨nofun, nofun⟩
    · exact Calls.runs_pure ()
  · unfold setMode
    split
    · refine Calls.runs_bind (h _ ⟨nofun, nofun⟩) fun current => ?_
      split
      · exact Calls.runs_pure ()
      · exact h _ ⟨nofun, nofun⟩
    · exact Calls.runs_pure ()
  · unfold setLevel
    split
    · exact h _ ⟨nofun, nofun⟩
    · exact Calls.runs_pure ()

/-- Giving a connection up keeps what gentle calls and a close keep. -/
theorem Drivers.giveUp_keeps
    (h : ∀ call : RawCall, (∀ statement, call ≠ .execute statement) →
      Calls.Runs I False (D.call conn call)) {s : σ} (hs : I s) : I (D.giveUp conn s) :=
  (h .close nofun _ (runs_rollbackIfManual (fun call hc => h call hc.2) s hs).1).1

end Runs

/-! ## A pool that does not probe -/

section Unprobed

variable {I : σ → Prop} {D : Drivers σ}

theorem Source.newConnection_keeps (src : Source) (who : Credentials) (conn : Conn)
    (hconnect : ∀ url properties, Calls.Runs I False (D.connect conn url properties))
    (hcall : ∀ call : RawCall, (∀ statement, call ≠ .execute statement) →
      Calls.Runs I False (D.call conn call)) {s : σ} (hs : I s) :
    I (src.newConnection D who conn s).2 := by
  unfold newConnection
  have hopened := (hconnect src.config.url (src.config.propertiesFor who) s hs).1
  rcases hc : D.connect conn src.config.url (src.config.propertiesFor who) s with ⟨r, s₁⟩
  rw [hc] at hopened
  rcases r with e | u
  · exact hopened
  · have hconfigured := (src.config.runs_configure (fun call hg => hcall call hg.2) s₁ hopened).1
    rcases hf : src.config.configure D conn s₁ with ⟨r, s₂⟩
    rw [hf] at hconfigured
    rcases r with e | u
    · simp only [hf]
      exact (hcall .close nofun s₂ hconfigured).1
    · simp only [hf]
      exact hconfigured

/-- Without a probe an examination only asks whether the connection is closed. -/
theorem Drivers.isHealthy_keeps {config : PoolConfig} (hping : config.pingEnabled = false)
    (now : Instant) (c : Wrapper) (h : Calls.Runs I False (D.call c.conn .isClosed)) {s : σ}
    (hs : I s) : I (D.isHealthy config now c s).2 := by
  have hasked := (h s hs).1
  have hdue : probeDue config now c = false := by rw [probeDue, hping, Bool.false_and]
  rcases D.isHealthy_cases config now c s with ⟨r, s₁, hr, -, e⟩ | ⟨s₁, hr, -, e⟩ |
    ⟨s₁, s₂, -, hdue', -⟩ | ⟨s₁, err, s₂, -, hdue', -⟩
  · rw [hr] at hasked
    rw [e]
    exact hasked
  · rw [hr] at hasked
    rw [e]
    exact hasked
  · nomatch hdue.symm.trans hdue'
  · nomatch hdue.symm.trans hdue'

theorem World.isFit_keeps {w w' : World σ} {c : Wrapper} {fit : Bool}
    (hping : w.pool.config.pingEnabled = false)
    (h : Calls.Runs I False (D.call c.conn .isClosed)) (hfit : w.isFit D c = (fit, w'))
    (hw : I w.drivers) : I w'.drivers := by
  rcases isFit_cases D hfit with ⟨-, e⟩ | ⟨-, -, rfl⟩
  · have hasked := D.isHealthy_keeps hping w.now c h hw
    rw [e] at hasked
    exact hasked
  · exact hw

/-- **A pool that does not probe runs no statement**: what a connect keeps, and every call that runs no
    statement, is a ledger of it. -/
theorem World.unprobed_ledger
    (hconnect : ∀ conn url properties, Calls.Runs I False (D.connect conn url properties))
    (hcall : ∀ conn (call : RawCall), (∀ statement, call ≠ .execute statement) →
      Calls.Runs I False (D.call conn call)) :
    Ledger D fun w _ => w.pool.config.pingEnabled = false → I w.drivers where
  perm h _ := h
  lists _ _ _ _ h := h
  opened {w _ who _} _ hs h hping := by
    have hkept := w.pool.source.newConnection_keeps who w.nextConn (hconnect _) (hcall _) (h hping)
    rw [hs] at hkept
    exact hkept
  refused {w _ who _ _} _ hs h hping := by
    have hkept := w.pool.source.newConnection_keeps who w.nextConn (hconnect _) (hcall _) (h hping)
    rw [hs] at hkept
    exact hkept
  fit hfit h hping := by
    rw [pool_of_isFit D hfit] at hping
    exact isFit_keeps hping (hcall _ _ nofun) hfit (h hping)
  unfit hfit h hping := by
    rw [discard_pool, pool_of_isFit D hfit] at hping
    have hexamined := isFit_keeps hping (hcall _ _ nofun) hfit (h hping)
    exact Drivers.giveUp_keeps (hcall _) hexamined
  rolledBack {w _ c} h hping :=
    (Drivers.runs_rollbackIfManual (fun call hg => hcall c.conn call hg.2) _ (h hping)).1
  reclaimed {w _ c} h hping :=
    (Drivers.runs_rollbackIfManual (fun call hg => hcall c.conn call hg.2) _ (h hping)).1
  stamped _ h := h
  kept h := h
  closed {w _ c} h hping := (hcall c.conn .close nofun _ (h hping)).1
  discarded h hping := Drivers.giveUp_keeps (hcall _) (h hping)

end Unprobed

end ConnPool
