/-
  When a connection was last used.

  A connection is used when it is handed out.  When this happened last is read off a run (`lastUse`); a
  connection that was never handed out counts as used when it was opened.  The wrappers remember it: a
  return and a reclaim wrap a connection anew, but only a hand-out sets `lastUsedAt`, so every wrapper on
  a list bears the time of the last use of its connection (`lastUse_of_listed`).  So the age that is
  compared with the limit for a probe is the time for which the connection has really been unused.
-/
import ConnPool.Proofs.AgeOrder

namespace ConnPool

variable {σ : Type}

/-- Whether somebody who sees this was handed the connection. -/
def Outcome.hands (conn : Conn) : Outcome → Bool
  | .acquired h => h.conn = conn
  | _ => false

theorem Outcome.hands_iff {o : Outcome} {conn : Conn} :
    o.hands conn = true ↔ ∃ h, o = .acquired h ∧ h.conn = conn := by
  cases o with
  | acquired h => simp [hands]
  | _ => simp [hands]

namespace Machine

section Runs

variable (D : Drivers σ) (source : Source) (config : PoolConfig) (s : σ)

/-- The last use of a connection in a run that is told backwards, the latest event first. -/
def lastUseBackwards : List (Event σ) → Conn → Option Instant
  | [], _ => none
  | e :: past, conn =>
    let m := reached D source config s past.reverse
    if (m.observe D e).1.hands conn then some m.world.now
    else (lastUseBackwards past conn).or
      (if conn ∈ openedIn (m.observe D e).2.log then some m.world.now else none)

/-- When a connection was last handed out in the run of the events `es`, or when it was opened, if it was
    never handed out; nothing if it was not opened either. -/
def lastUse (es : List (Event σ)) (conn : Conn) : Option Instant :=
  lastUseBackwards D source config s es.reverse conn

/-- For how long a connection has not been used; one that was not even opened has its life before it. -/
def unusedFor (es : List (Event σ)) (conn : Conn) : Duration :=
  match lastUse D source config s es conn with
  | some t => (reached D source config s es).world.now - t
  | none => .zero

theorem lastUse_concat (es : List (Event σ)) (e : Event σ) (conn : Conn) :
    lastUse D source config s (es ++ [e]) conn =
      if ((reached D source config s es).observe D e).1.hands conn then
        some (reached D source config s es).world.now
      else (lastUse D source config s es conn).or
        (if conn ∈ openedIn (reached D source config s (es ++ [e])).log
          then some (reached D source config s es).world.now else none) := by
  rw [lastUse, List.reverse_append, List.reverse_singleton, List.singleton_append, lastUseBackwards,
    List.reverse_reverse, reached_concat]
  rfl

/-- What is handed out is on the active list afterwards. -/
theorem listed_of_hands {es : List (Event σ)} {e : Event σ} {conn : Conn}
    (h : ((reached D source config s es).observe D e).1.hands conn = true) :
    ∃ c ∈ (reached D source config s (es ++ [e])).world.pool.wrappers,
      c.conn = conn ∧ c.lastUsedAt = (reached D source config s es).world.now := by
  obtain ⟨hd, hout, rfl⟩ := Outcome.hands_iff.1 h
  obtain ⟨c, hc, rfl, -, hstamp⟩ := (observe_stamps D _ e).handsOut hd hout
  refine ⟨c, List.mem_append_left _ ?_, rfl, hstamp⟩
  rw [reached_concat]
  exact hc

/-- A connection has a last use if it was opened, and only then. -/
theorem lastUse_eq_none_iff (es : List (Event σ)) (conn : Conn) :
    lastUse D source config s es conn = none ↔
      conn ∉ openedIn (reached D source config s es).log := by
  induction es using List.reverseRecOn with
  | nil => exact iff_of_true rfl (List.not_mem_nil)
  | append_singleton es e ih =>
    rw [lastUse_concat]
    split
    case isTrue hhands =>
      obtain ⟨c, hc, rfl, -⟩ := listed_of_hands D source config s hhands
      have hopened := (listed_of_accounts (accounts_reached D source config s (es ++ [e])) hc).1
      exact iff_of_false nofun (not_not_intro hopened)
    case isFalse =>
      have hgrows := openedIn_subset (log_isPrefix D source config s (List.prefix_append es [e]))
      rw [Option.or_eq_none_iff, ih]
      by_cases hopened : conn ∈ openedIn (reached D source config s (es ++ [e])).log
      · simp [hopened]
      · have hbefore : conn ∉ openedIn (reached D source config s es).log :=
          fun h => hopened (hgrows h)
        simp [hopened, hbefore]

/-- **A wrapper bears the last use of its connection.** -/
theorem lastUse_of_listed (es : List (Event σ)) :
    ∀ c ∈ (reached D source config s es).world.pool.wrappers,
      lastUse D source config s es c.conn = some c.lastUsedAt := by
  induction es using List.reverseRecOn with
  | nil => exact nofun
  | append_singleton es e ih =>
    intro c' hc'
    rw [lastUse_concat]
    split
    case isTrue hhands =>
      -- the wrapper that is handed out is the only one around its connection
      obtain ⟨c, hc, hconn, hstamp⟩ := listed_of_hands D source config s hhands
      have howned := owned_reached D source config s (es ++ [e])
      rw [World.eq_of_conn_eq howned.roster hc' hc hconn.symm, hstamp]
    case isFalse hnot =>
      have hstamps := observe_stamps D (reached D source config s es) e
      rw [← reached_concat] at hstamps
      obtain ⟨c, hc, hconn, hlast⟩ : ∃ c ∈ (reached D source config s es).world.pool.wrappers,
          c.conn = c'.conn ∧ c.lastUsedAt = c'.lastUsedAt := by
        rcases List.mem_append.1 hc' with hc' | hc'
        · rcases hstamps.active c' hc' with hbefore | ⟨hout, -⟩
          · exact ⟨c', List.mem_append_left _ hbefore, rfl, rfl⟩
          · exact absurd (Outcome.hands_iff.2 ⟨_, hout, rfl⟩) hnot
        · rcases hstamps.idle c' hc' with hbefore | ⟨key, h, c, -, -, hc, -, rfl⟩
          · exact ⟨c', List.mem_append_right _ hbefore, rfl, rfl⟩
          · exact ⟨c, List.mem_append_left _ hc, rfl, rfl⟩
      rw [← hconn, ih c hc, hlast, Option.some_or]

theorem unusedFor_of_listed {es : List (Event σ)} {c : Wrapper}
    (hc : c ∈ (reached D source config s es).world.pool.wrappers) :
    unusedFor D source config s es c.conn =
      (reached D source config s es).world.now - c.lastUsedAt := by
  rw [unusedFor, lastUse_of_listed D source config s es c hc]

/-- A connection is not used while it is idle. -/
theorem lastUsed_le_checkout (es : List (Event σ)) :
    ∀ c ∈ (reached D source config s es).world.pool.wrappers, c.lastUsedAt ≤ c.checkoutAt := by
  induction es using List.reverseRecOn with
  | nil => exact nofun
  | append_singleton es e ih =>
    intro c' hc'
    have hstamps := observe_stamps D (reached D source config s es) e
    rw [← reached_concat] at hstamps
    rcases List.mem_append.1 hc' with hc' | hc'
    · rcases hstamps.active c' hc' with hbefore | ⟨-, hcheckout, hlast⟩
      · exact ih c' (List.mem_append_left _ hbefore)
      · rw [hcheckout, hlast]
        exact Nat.le_refl _
    · rcases hstamps.idle c' hc' with hbefore | ⟨key, h, c, -, -, hc, -, rfl⟩
      · exact ih c' (List.mem_append_right _ hbefore)
      · have hpast := (inOrder_reached D source config s es).past c hc
        exact Nat.le_trans (ih c (List.mem_append_left _ hc)) hpast

end Runs

end Machine

end ConnPool
