/-
  What a pool counts, as sums.

  Counters only grow, and every operation adds to them what it did: so counters are sums, and what an
  operation counts is a summand (`Counters` has an addition).

  A pass counts the connections that it reclaims, with the time that they were out, the candidates that
  it throws away, and its hand-out.  What it reclaims can be seen on the active list; what it throws
  away cannot be seen anywhere afterwards, so the search is gone through once more for it (`rejects`).
  `tryOut_tally` says what a pass did to the active list and to the counters, and `checkIn_tally` the
  same of a return.
-/
import ConnPool.Proofs.Pass
import ConnPool.Proofs.Return
import ConnPool.Proofs.Undisturbed

namespace ConnPool

variable {σ : Type}

/-! ## Sums -/

namespace Duration

protected theorem add_assoc (a b c : Duration) : a + b + c = a + (b + c) := by
  ext
  simp only [nanos_add, Nat.add_assoc]

protected theorem add_comm (a b : Duration) : a + b = b + a := by
  ext
  simp only [nanos_add, Nat.add_comm]

@[simp] protected theorem add_zero (a : Duration) : a + zero = a := rfl

@[simp] protected theorem zero_add (a : Duration) : zero + a = a := by
  ext
  simp only [nanos_add, nanos_zero, Nat.zero_add]

protected theorem sub_self (a : Duration) : a - a = zero := by
  ext
  exact Nat.sub_self _

protected theorem not_lt_zero (a : Duration) : ¬ a < zero :=
  Nat.not_lt_zero _

/-- The spans of a list, one after the other. -/
def total (l : List Duration) : Duration :=
  l.foldr (· + ·) zero

@[simp] theorem total_nil : total [] = zero := rfl

@[simp] theorem total_cons (d : Duration) (l : List Duration) : total (d :: l) = d + total l := rfl

@[simp] theorem total_append (l l' : List Duration) : total (l ++ l') = total l + total l' := by
  induction l with
  | nil => exact (Duration.zero_add _).symm
  | cons d l ih => rw [List.cons_append, total_cons, total_cons, ih, Duration.add_assoc]

@[simp] theorem total_singleton (d : Duration) : total [d] = d := rfl

end Duration

namespace Counters

instance : Add Counters where
  add k l := {
    requests := k.requests + l.requests
    requestTime := k.requestTime + l.requestTime
    checkoutTime := k.checkoutTime + l.checkoutTime
    claimedOverdue := k.claimedOverdue + l.claimedOverdue
    overdueCheckoutTime := k.overdueCheckoutTime + l.overdueCheckoutTime
    waitTime := k.waitTime + l.waitTime
    hadToWait := k.hadToWait + l.hadToWait
    badConnections := k.badConnections + l.badConnections }

theorem add_def (k l : Counters) : k + l = {
    requests := k.requests + l.requests
    requestTime := k.requestTime + l.requestTime
    checkoutTime := k.checkoutTime + l.checkoutTime
    claimedOverdue := k.claimedOverdue + l.claimedOverdue
    overdueCheckoutTime := k.overdueCheckoutTime + l.overdueCheckoutTime
    waitTime := k.waitTime + l.waitTime
    hadToWait := k.hadToWait + l.hadToWait
    badConnections := k.badConnections + l.badConnections } := rfl

protected theorem add_assoc (k l n : Counters) : k + l + n = k + (l + n) := by
  simp only [add_def, Nat.add_assoc, Duration.add_assoc]

protected theorem add_comm (k l : Counters) : k + l = l + k := by
  simp only [add_def, Nat.add_comm, Duration.add_comm]

instance : Std.Associative (α := Counters) (· + ·) := ⟨Counters.add_assoc⟩

instance : Std.Commutative (α := Counters) (· + ·) := ⟨Counters.add_comm⟩

end Counters

/-! ## A pass -/

/-- How long connections have been out. -/
def agesOf (now : Instant) (l : List Wrapper) : List Duration :=
  l.map fun c => now - c.checkoutAt

/-- What is counted when connections are reclaimed. -/
def tallyOfReclaims (now : Instant) (taken : List Wrapper) : Counters where
  claimedOverdue := taken.length
  overdueCheckoutTime := .total (agesOf now taken)
  checkoutTime := .total (agesOf now taken)

/-- What is counted when so many bad connections are met. -/
def tallyOfBad (n : Nat) : Counters where
  badConnections := n

/-- What is counted when a pass is over. -/
def tallyOfEnd (now startedAt : Instant) : PassEnd → Counters
  | .handedOut _ => { requests := 1, requestTime := now - startedAt }
  | _ => {}

theorem tallyOfReclaims_append (now : Instant) (l l' : List Wrapper) :
    tallyOfReclaims now (l ++ l') = tallyOfReclaims now l + tallyOfReclaims now l' := by
  simp only [tallyOfReclaims, agesOf, List.map_append, List.length_append, Duration.total_append]
  rfl

namespace World

variable (D : Drivers σ)

/-- The candidates that a pass finds bad and throws away, when `budget` more of them may be bad. -/
def rejects (who : Credentials) : (budget : Nat) → World σ → List Wrapper
  | budget, w =>
    match w.takeCandidate D who with
    | (.found c, w) =>
      match w.isGood D c with
      | (true, _) => []
      | (false, w) =>
        let w := w.reject D c
        c :: if w.pool.config.badBudget < wordLimit then
            match budget with
            | 0 => []
            | budget + 1 => rejects who budget w
          else []
    | _ => []

section Rejects

variable {D} {w w₁ w₂ : World σ} {who : Credentials} {c : Wrapper}

/-- No candidate changes the configuration by being thrown away. -/
theorem config_of_rejected (ht : w.takeCandidate D who = (.found c, w₁))
    (hg : w₁.isGood D c = (false, w₂)) : (w₂.reject D c).pool.config = w.pool.config :=
  (congrArg Pool.config (pool_of_isGood D hg)).trans (takeCandidate_found_pruned D ht).1.config

theorem rejects_of_failed {e : PoolError} (budget : Nat)
    (ht : w.takeCandidate D who = (.failed e, w₁)) : w.rejects D who budget = [] := by
  unfold rejects
  rw [ht]

theorem rejects_of_mustWait (budget : Nat) (ht : w.takeCandidate D who = (.mustWait, w₁)) :
    w.rejects D who budget = [] := by
  unfold rejects
  rw [ht]

theorem rejects_of_good (budget : Nat) (ht : w.takeCandidate D who = (.found c, w₁))
    (hg : w₁.isGood D c = (true, w₂)) : w.rejects D who budget = [] := by
  unfold rejects
  rw [ht]
  simp only [hg]

theorem rejects_of_bad (budget : Nat) (ht : w.takeCandidate D who = (.found c, w₁))
    (hg : w₁.isGood D c = (false, w₂)) : w.rejects D who budget =
      c :: if (w₂.reject D c).pool.config.badBudget < wordLimit then
          match budget with
          | 0 => []
          | budget + 1 => (w₂.reject D c).rejects D who budget
        else [] := by
  conv => lhs; unfold rejects
  rw [ht]
  simp only [hg]

end Rejects

/-- **The rule of the loop, with what it rejects.**  A pass ends with its first search, or hands its first
    candidate out, or throws it away as the last of the budget, or throws it away and goes on; or it throws
    it away and breaks off, since the budget does not fit in a word. -/
theorem rejects_rule {who : Credentials} {startedAt : Instant}
    {G : (budget r : Nat) → World σ → List Wrapper → PassEnd × World σ → Prop}
    (failed : ∀ {budget r w e w'}, w.takeCandidate D who = (.failed e, w') →
      G budget r w [] (.failed e, w'))
    (wait : ∀ {budget r w w'}, w.takeCandidate D who = (.mustWait, w') →
      G budget r w [] (.mustWait r, w'))
    (good : ∀ {budget r w c w₁ w₂}, w.takeCandidate D who = (.found c, w₁) →
      w₁.isGood D c = (true, w₂) → G budget r w []
        (.handedOut (w₂.handOut who startedAt c).1, (w₂.handOut who startedAt c).2))
    (last : ∀ {r w c w₁ w₂}, w.takeCandidate D who = (.found c, w₁) →
      w₁.isGood D c = (false, w₂) → w.pool.config.badBudget < wordLimit →
      G 0 r w [c] (.failed (.exhausted (r + 1)), w₂.reject D c))
    (overflowed : ∀ {budget r w c w₁ w₂}, w.takeCandidate D who = (.found c, w₁) →
      w₁.isGood D c = (false, w₂) → ¬ w.pool.config.badBudget < wordLimit →
      G budget r w [c] (.overflowed, w₂.reject D c))
    (bad : ∀ {budget r w c w₁ w₂}, w.takeCandidate D who = (.found c, w₁) →
      w₁.isGood D c = (false, w₂) → w.pool.config.badBudget < wordLimit →
      G budget (r + 1) (w₂.reject D c) ((w₂.reject D c).rejects D who budget)
        ((w₂.reject D c).tryOut D who startedAt budget (r + 1)) →
      G (budget + 1) r w (c :: (w₂.reject D c).rejects D who budget)
        ((w₂.reject D c).tryOut D who startedAt budget (r + 1))) :
    ∀ (budget r : Nat) (w : World σ),
      G budget r w (w.rejects D who budget) (w.tryOut D who startedAt budget r) := by
  have turn : ∀ (budget r : Nat) (w : World σ), (∀ b, budget = b + 1 → ∀ w₁ : World σ,
      G b (r + 1) w₁ (w₁.rejects D who b) (w₁.tryOut D who startedAt b (r + 1))) →
      G budget r w (w.rejects D who budget) (w.tryOut D who startedAt budget r) := by
    intro budget r w later
    refine tryOut_turn D (G := G budget r w (w.rejects D who budget)) ?_ ?_ ?_ ?_
    · intro e w' ht
      rw [rejects_of_failed budget ht]
      exact failed ht
    · intro w' ht
      rw [rejects_of_mustWait budget ht]
      exact wait ht
    · intro c w₁ w₂ ht hg
      rw [rejects_of_good budget ht hg]
      exact good ht hg
    · intro c w₁ w₂ ht hg
      rw [rejects_of_bad budget ht hg, config_of_rejected ht hg]
      by_cases hfits : w.pool.config.badBudget < wordLimit
      · rw [if_pos hfits, if_pos hfits]
        cases budget with
        | zero => exact last ht hg hfits
        | succ budget => exact bad ht hg hfits (later budget rfl _)
      · rw [if_neg hfits, if_neg hfits]
        exact overflowed ht hg hfits
  intro budget
  induction budget with
  | zero => exact fun r w => turn 0 r w nofun
  | succ budget ih =>
    intro r w
    refine turn (budget + 1) r w fun b hb w₁ => ?_
    obtain rfl := Nat.succ.inj hb
    exact ih (r + 1) w₁

/-- What a search takes off the active list is overdue, and counted. -/
theorem takeCandidate_found_tally {w w' : World σ} {who : Credentials} {c : Wrapper}
    (ht : w.takeCandidate D who = (.found c, w')) :
    ∃ taken, w.pool.active = taken ++ w'.pool.active ∧
      (∀ d ∈ taken, w.pool.config.maxCheckoutTime < w.now - d.checkoutAt) ∧
      w'.pool.counters = w.pool.counters + tallyOfReclaims w.now taken := by
  rcases takeCandidate_found D ht with ⟨rest, -, rfl⟩ | ⟨-, -, -, s, -, rfl⟩ |
    ⟨-, oldest, rest, ha, -, hover, -, rfl⟩
  · exact ⟨[], rfl, nofun, rfl⟩
  · exact ⟨[], rfl, nofun, rfl⟩
  · refine ⟨[oldest], ha, fun d hd => ?_, ?_⟩
    · rw [List.mem_singleton.1 hd]
      exact hover
    · simp only [reclaim_pool, Counters.add_def, tallyOfReclaims, agesOf, List.map_cons,
        List.map_nil, Duration.total_singleton, List.length_singleton]
      rfl

/-- What a pass did to the active list and to the counters: it took what was overdue from the front, it
    may have put its hand-out at the end, and it counted this, what it took and what it threw away. -/
structure Tallied (w : World σ) (startedAt : Instant) (bad : List Wrapper) (r : PassEnd)
    (w' : World σ) (taken rest : List Wrapper) : Prop where
  before : w.pool.active = taken ++ rest
  overdue : ∀ d ∈ taken, w.pool.config.maxCheckoutTime < w.now - d.checkoutAt
  handedOut : ∀ h, r = .handedOut h → ∃ c, w'.pool.active = rest ++ [c] ∧ c.handle = h ∧
    c.checkoutAt = w.now
  otherwise : (∀ h, r ≠ .handedOut h) → w'.pool.active = rest
  counters : w'.pool.counters = w.pool.counters +
    (tallyOfReclaims w.now taken + tallyOfBad bad.length + tallyOfEnd w.now startedAt r)

theorem tallyOfBad_add (m n : Nat) : tallyOfBad m + tallyOfBad n = tallyOfBad (m + n) := rfl

section Tallied

variable {D} {w w₁ w₂ : World σ} {who : Credentials} {startedAt : Instant} {c : Wrapper}

/-- A pass that ends with its first search takes nothing and counts nothing. -/
theorem Tallied.nothing {r : PassEnd} (hr : ∀ h, r ≠ .handedOut h)
    (hactive : w₁.pool.active = w.pool.active) (hcounters : w₁.pool.counters = w.pool.counters) :
    w.Tallied startedAt [] r w₁ [] w.pool.active where
  before := rfl
  overdue := nofun
  handedOut h he := absurd he (hr h)
  otherwise _ := hactive
  counters := by
    have hend : tallyOfEnd w.now startedAt r = {} := by
      cases r with
      | handedOut h => exact absurd rfl (hr h)
      | _ => rfl
    rw [hcounters, hend]
    rfl

/-- A pass whose first candidate is good hands it out. -/
theorem Tallied.good (startedAt : Instant) (ht : w.takeCandidate D who = (.found c, w₁))
    (hg : w₁.isGood D c = (true, w₂)) : ∃ taken, w.Tallied startedAt []
      (.handedOut (w₂.handOut who startedAt c).1) (w₂.handOut who startedAt c).2 taken
      w₁.pool.active := by
  obtain ⟨taken, hbefore, hoverdue, hcounters⟩ := takeCandidate_found_tally D ht
  have hpool := pool_of_isGood D hg
  have hnow : w₂.now = w.now := (now_of_isGood D hg).trans (takeCandidate_found_now D ht)
  refine ⟨taken, hbefore, hoverdue, fun h he => ?_, fun hnot => absurd rfl (hnot _), ?_⟩
  · refine ⟨w₂.stamped who c, ?_, PassEnd.handedOut.inj he, hnow⟩
    rw [handOut_pool, hpool]
  · have hend : (w₂.handOut who startedAt c).2.pool.counters =
        w₂.pool.counters + tallyOfEnd w₂.now startedAt (.handedOut (w₂.handOut who startedAt c).1) :=
      rfl
    have hnone : tallyOfBad ([] : List Wrapper).length = {} := rfl
    rw [hend, hpool, hcounters, hnow, Counters.add_assoc, hnone]
    rfl

/-- A bad candidate is counted, and what the rest of the pass does is added. -/
theorem Tallied.bad {bad : List Wrapper} {r : PassEnd} {w' : World σ} {taken' rest : List Wrapper}
    (ht : w.takeCandidate D who = (.found c, w₁)) (hg : w₁.isGood D c = (false, w₂))
    (h : (w₂.reject D c).Tallied startedAt bad r w' taken' rest) :
    ∃ taken, w.Tallied startedAt (c :: bad) r w' taken rest := by
  obtain ⟨taken, hbefore, hoverdue, hcounters⟩ := takeCandidate_found_tally D ht
  have hpool := pool_of_isGood D hg
  have hnow : w₂.now = w.now := (now_of_isGood D hg).trans (takeCandidate_found_now D ht)
  have hconfig : w₂.pool.config = w.pool.config := config_of_rejected ht hg
  have hactive : w₁.pool.active = taken' ++ rest :=
    (congrArg Pool.active hpool).symm.trans h.before
  have hrejected : (w₂.reject D c).pool.counters = w₂.pool.counters + tallyOfBad 1 := rfl
  refine ⟨taken ++ taken', ?_, fun d hd => ?_, fun hd he => ?_, h.otherwise, ?_⟩
  · rw [hbefore, hactive, List.append_assoc]
  · rcases List.mem_append.1 hd with hd | hd
    · exact hoverdue d hd
    · have hlater : w₂.pool.config.maxCheckoutTime < w₂.now - d.checkoutAt := h.overdue d hd
      rwa [hconfig, hnow] at hlater
  · obtain ⟨c', hc', hh, hstamp⟩ := h.handedOut hd he
    exact ⟨c', hc', hh, hstamp.trans hnow⟩
  · have hall := h.counters
    rw [hrejected, hpool, hcounters, reject_now, hnow] at hall
    have hbad : tallyOfBad (c :: bad).length = tallyOfBad 1 + tallyOfBad bad.length := by
      rw [tallyOfBad_add, List.length_cons, Nat.add_comm]
    rw [hall, tallyOfReclaims_append, hbad]
    ac_rfl

/-- A pass that ends with a bad candidate counts it. -/
theorem Tallied.last {r : PassEnd} (ht : w.takeCandidate D who = (.found c, w₁))
    (hg : w₁.isGood D c = (false, w₂)) (hr : ∀ h, r ≠ .handedOut h) :
    ∃ taken, w.Tallied startedAt [c] r (w₂.reject D c) taken (w₂.reject D c).pool.active :=
  Tallied.bad ht hg (.nothing hr rfl rfl)

end Tallied

/-- **What a pass counts.** -/
theorem tryOut_tally (who : Credentials) (startedAt : Instant) : ∀ (budget r : Nat) (w : World σ),
    ∃ taken rest, w.Tallied startedAt (w.rejects D who budget)
      (w.tryOut D who startedAt budget r).1 (w.tryOut D who startedAt budget r).2 taken rest := by
  refine rejects_rule D (G := fun _ _ w bad end_ =>
    ∃ taken rest, w.Tallied startedAt bad end_.1 end_.2 taken rest) ?_ ?_ ?_ ?_ ?_ ?_
  · intro budget r w e w' ht
    rcases takeCandidate_failed D ht with ⟨-, -, cause, s, -, -, rfl⟩ | ⟨-, -, -, -, rfl⟩
    all_goals exact ⟨_, _, .nothing nofun rfl rfl⟩
  · intro budget r w w' ht
    rw [(takeCandidate_mustWait D ht).1]
    exact ⟨_, _, .nothing nofun rfl rfl⟩
  · intro budget r w c w₁ w₂ ht hg
    obtain ⟨taken, h⟩ := Tallied.good startedAt ht hg
    exact ⟨taken, _, h⟩
  · intro r w c w₁ w₂ ht hg _
    obtain ⟨taken, h⟩ := Tallied.last ht hg (r := .failed (.exhausted (r + 1))) nofun
    exact ⟨taken, _, h⟩
  · intro budget r w c w₁ w₂ ht hg _
    obtain ⟨taken, h⟩ := Tallied.last ht hg (r := .overflowed) nofun
    exact ⟨taken, _, h⟩
  · rintro budget r w c w₁ w₂ ht hg - ⟨taken', rest, hrest⟩
    obtain ⟨taken, h⟩ := Tallied.bad ht hg hrest
    exact ⟨taken, _, h⟩

/-! ## A return -/

/-- Whether a connection is found fit does not depend on the active list. -/
theorem isFit_onActive (w : World σ) (active : List Wrapper) (c : Wrapper) :
    ((w.onPool fun p => { p with active }).isFit D c).1 = (w.isFit D c).1 := by
  unfold isFit
  split
  · next hv =>
    rw [if_pos (show w.pool.valid.contains c.id = true from hv)]
    rfl
  · next hv => rw [if_neg (show ¬ w.pool.valid.contains c.id = true from hv)]

/-- What is counted when a connection comes back: how long it was out, if it is fit. -/
def tallyOfReturn (now : Instant) (fit : Bool) (c : Wrapper) : Counters :=
  if fit then { checkoutTime := now - c.checkoutAt } else tallyOfBad 1

/-- What a connection that comes back leaves in the counters. -/
theorem takeBack_counters (w : World σ) (c : Wrapper) : (w.takeBack D c).pool.counters =
    w.pool.counters + tallyOfReturn w.now (w.isFit D c).1 c := by
  rcases w.takeBack_cases D c with ⟨w₁, hfit, e⟩ | ⟨w₁, w₂, hfit, hr, -, e⟩ | ⟨w₁, r, w₂, hfit, hr, -, e⟩
  · rw [e, hfit, reject_pool, pool_of_isFit D hfit]
    rfl
  · rw [e, hfit, keep_pool, pool_of_countedBack D hfit hr]
    rfl
  · rw [e, hfit, close_pool, pool_of_countedBack D hfit hr]
    rfl

/-- **What a return counts**: a bad connection if nothing comes back, and otherwise what comes back. -/
theorem checkIn_tally (w : World σ) (id : Nat) :
    ((∀ c ∈ w.pool.active, c.id ≠ id) ∧ (w.checkIn D id).pool.active = w.pool.active ∧
      (w.checkIn D id).pool.counters = w.pool.counters + tallyOfBad 1) ∨
    (∃ c front back, w.pool.active = front ++ c :: back ∧ c.id = id ∧
      (w.checkIn D id).pool.active = front ++ back ∧ (w.checkIn D id).pool.counters =
        w.pool.counters + tallyOfReturn w.now (w.isFit D c).1 c) := by
  rcases w.checkIn_cases D id with ⟨hnone, e⟩ | ⟨c, front, back, ha, hid, -, e⟩
  · rw [e]
    exact Or.inl ⟨hnone, rfl, rfl⟩
  · rw [e, takeBack_active, takeBack_counters, isFit_onActive]
    exact Or.inr ⟨c, front, back, ha, hid, rfl, rfl⟩

end World

end ConnPool
