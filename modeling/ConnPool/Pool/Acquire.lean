/-
  Getting a connection out of a pool.

  An acquisition runs in passes.  A pass looks for a candidate: a connection that was returned, or
  else a new one while fewer than `maxActive` are out, or else the connection that has been out for
  longest if it is overdue, which is then taken away from its holder.  If there is none of these the
  acquisition waits.  A candidate is handed out if it is fit and can be rolled back; a bad one is
  thrown away and counted, and the pass looks again, until the budget for bad connections is used up.
  How much that is is worked out when a candidate was bad: a budget that does not fit in a word breaks
  the pass off there.

  A pass is one step of the pool.  `tryOut` recurses on what is left of the budget, so the loop ends
  whatever the drivers do.
-/
import ConnPool.Pool.Health

namespace ConnPool

/-- What the search for a candidate comes to. -/
inductive Candidate
  | found (c : Wrapper)
  | mustWait
  | failed (e : PoolError)

/-- What a pass comes to. -/
inductive PassEnd
  | handedOut (h : Handle)
  /-- Nothing can be handed out now; so many connections were bad, this pass included. -/
  | mustWait (rejected : Nat)
  | failed (e : PoolError)
  /-- A connection was bad, and the budget for bad ones does not fit in a word: the pass breaks off. -/
  | overflowed
deriving DecidableEq, Repr

namespace World

variable {σ : Type} (D : Drivers σ)

/-- Opens a connection for a caller. -/
def openCandidate (w : World σ) (who : Credentials) : Candidate × World σ :=
  let conn : Conn := ⟨w.pool.source.driver, w.pool.nextTicket⟩
  let w' := w.onPool fun p => { p with nextTicket := p.nextTicket + 1 }
  match w'.run (w.pool.source.newConnection D who conn) with
  | (.error e, w) => (.failed (.connection e), w)
  | (.ok (), w) =>
    let c := w.pool.wrapped conn who w.now
    (.found c, w.onPool fun p => { p.enroll c with nextRaw := p.nextRaw + 1 })

/-- Takes an overdue connection, no longer in the active list, away from its holder. -/
def reclaim (w : World σ) (overdue : Wrapper) : Wrapper × World σ :=
  let age := w.now - overdue.checkoutAt
  let w := w.onPool (·.count fun k => { k with
    claimedOverdue := k.claimedOverdue + 1
    overdueCheckoutTime := k.overdueCheckoutTime + age
    checkoutTime := k.checkoutTime + age })
  -- a rollback that fails is found out when the connection is tried out
  let w := w.onDrivers (Drivers.quietly (D.rollbackIfManual overdue.conn))
  let w := w.onPool (·.invalidate overdue.id)
  let c := w.pool.rewrapped overdue w.now
  (c, w.onPool (·.enroll c))

/-- Looks for a connection to hand out. -/
def takeCandidate (w : World σ) (who : Credentials) : Candidate × World σ :=
  match w.pool.idle with
  | c :: rest => (.found c, w.onPool fun p => { p with idle := rest })
  -- nothing came back: open a new one, take an overdue one, or wait
  | [] =>
    if w.pool.active.length < w.pool.config.maxActive then w.openCandidate D who
    else
      match w.pool.active with
      | [] =>
        (.failed (.internal ("pool saturated with no active connections (max_active = " ++
          toString w.pool.config.maxActive ++ ")")), w)
      | oldest :: rest =>
        if w.pool.config.maxCheckoutTime < w.now - oldest.checkoutAt then
          let (c, w) := (w.onPool fun p => { p with active := rest }).reclaim D oldest
          (.found c, w)
        else (.mustWait, w)

/-- Whether a candidate is fit and free of uncommitted work. -/
def isGood (w : World σ) (c : Wrapper) : Bool × World σ :=
  match w.isFit D c with
  | (false, w) => (false, w)
  | (true, w) =>
    match w.run (D.rollbackIfManual c.conn) with
    | (.ok (), w) => (true, w)
    | (.error _, w) => (false, w)

/-- Puts a good candidate on the active list, stamped for its new holder. -/
def handOut (w : World σ) (who : Credentials) (startedAt : Instant) (c : Wrapper) :
    Handle × World σ :=
  let c := { c with
    identity := ⟨w.pool.source.config.url, who⟩
    checkoutAt := w.now
    lastUsedAt := w.now }
  let w := w.onPool fun p => { p with active := p.active ++ [c] }
  (c.handle, w.onPool (·.count fun k => { k with
    requests := k.requests + 1
    requestTime := k.requestTime + (w.now - startedAt) }))

/-- Tries candidates until one is good.  `budget` more of them may be bad, if that can be told, and
`rejected` have been. -/
def tryOut (who : Credentials) (startedAt : Instant) :
    (budget rejected : Nat) → World σ → PassEnd × World σ
  | budget, rejected, w =>
    match w.takeCandidate D who with
    | (.failed e, w) => (.failed e, w)
    | (.mustWait, w) => (.mustWait rejected, w)
    | (.found c, w) =>
      match w.isGood D c with
      | (true, w) =>
        let (h, w) := w.handOut who startedAt c
        (.handedOut h, w)
      | (false, w) =>
        let w := w.reject D c
        if w.pool.config.badBudget < wordLimit then
          match budget with
          -- the budget is used up
          | 0 => (.failed (.exhausted (rejected + 1)), w)
          | budget + 1 => tryOut who startedAt budget (rejected + 1) w
        else (.overflowed, w)

/-! ## Laws -/

/-- A candidate is good if it is fit and then its rollback succeeds. -/
theorem isGood_cases {w w' : World σ} {c : Wrapper} {good : Bool} (h : w.isGood D c = (good, w')) :
    (good = false ∧ w.isFit D c = (false, w')) ∨
    (∃ w₁ r, w.isFit D c = (true, w₁) ∧ w₁.run (D.rollbackIfManual c.conn) = (r, w') ∧
      (good = true ↔ r = .ok ())) := by
  unfold isGood at h
  rcases hfit : w.isFit D c with ⟨fit, w₁⟩
  rw [hfit] at h
  cases fit with
  | false =>
    obtain ⟨rfl, rfl⟩ := Prod.mk.inj h
    exact Or.inl ⟨rfl, rfl⟩
  | true =>
    rcases hr : w₁.run (D.rollbackIfManual c.conn) with ⟨r, w₂⟩
    simp only [hr] at h
    cases r with
    | error e =>
      obtain ⟨rfl, rfl⟩ := Prod.mk.inj h
      exact Or.inr ⟨w₁, .error e, rfl, hr, nofun, nofun⟩
    | ok u =>
      obtain ⟨rfl, rfl⟩ := Prod.mk.inj h
      exact Or.inr ⟨w₁, .ok u, rfl, hr, fun _ => rfl, fun _ => rfl⟩

/-- Trying a candidate out asks the drivers and changes nothing else. -/
theorem pool_of_isGood {w w' : World σ} {c : Wrapper} {good : Bool}
    (h : w.isGood D c = (good, w')) : w'.pool = w.pool := by
  rcases isGood_cases D h with ⟨-, hfit⟩ | ⟨w₁, r, hfit, hr, -⟩
  · exact pool_of_isFit D hfit
  · exact (congrArg (·.2.pool) hr.symm).trans (pool_of_isFit D hfit)

theorem now_of_isGood {w w' : World σ} {c : Wrapper} {good : Bool}
    (h : w.isGood D c = (good, w')) : w'.now = w.now := by
  rcases isGood_cases D h with ⟨-, hfit⟩ | ⟨w₁, r, hfit, hr, -⟩
  · exact now_of_isFit D hfit
  · exact (congrArg (·.2.now) hr.symm).trans (now_of_isFit D hfit)

end World

end ConnPool
