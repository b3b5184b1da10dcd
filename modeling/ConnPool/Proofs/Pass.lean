/-
  What one pass of an acquisition can do.

  A pass looks for a candidate, tries it out, and looks again as long as candidates are bad.  Three
  facts open it up for all that is said about passes later on:

  * `takeCandidate_cases` lists everything that one search can come to, with the condition under which
    it does and the world that it leaves.  Nothing else happens in a search.
  * `tryOut_rule` is the rule of the loop: what holds before every search, and survives a bad
    candidate being thrown away, holds when the pass ends.  The induction on the budget for bad
    candidates is done here once.

  `Pruned` is what a pass leaves of the two lists while it has nothing in hand: the idle list loses
  connections from its front and the active list its oldest, and no list gains one.
-/
import ConnPool.Pool.Acquire

namespace ConnPool

namespace World

variable {σ : Type} (D : Drivers σ)

/-! ## One search -/

/-- The name under which the next connection is opened. -/
def nextConn (w : World σ) : Conn :=
  ⟨w.pool.source.driver, w.pool.nextTicket⟩

/-- Opening a connection fails and uses up a ticket, or gives a wrapper of a new identity around a new
    connection. -/
theorem openCandidate_cases (w : World σ) (who : Credentials) :
    (∃ e s, w.pool.source.newConnection D who w.nextConn w.drivers = (.error e, s) ∧
      w.openCandidate D who = (.failed (.connection e),
        { w with pool := { w.pool with nextTicket := w.pool.nextTicket + 1 }, drivers := s })) ∨
    (∃ s, w.pool.source.newConnection D who w.nextConn w.drivers = (.ok (), s) ∧
      w.openCandidate D who = (.found (w.pool.wrapped w.nextConn who w.now),
        { w with
          pool := { w.pool.enroll (w.pool.wrapped w.nextConn who w.now) with
            nextTicket := w.pool.nextTicket + 1
            nextRaw := w.pool.nextRaw + 1 }
          drivers := s })) := by
  rcases h : w.pool.source.newConnection D who w.nextConn w.drivers with ⟨r, s⟩
  have h' : w.pool.source.newConnection D who ⟨w.pool.source.driver, w.pool.nextTicket⟩ w.drivers =
    (r, s) := h
  cases r with
  | error e =>
    refine Or.inl ⟨e, s, rfl, ?_⟩
    simp only [openCandidate, run, onPool, h']
  | ok u =>
    refine Or.inr ⟨s, rfl, ?_⟩
    simp only [openCandidate, run, onPool, h', nextConn]
    rfl

/-- A search takes the connection that came back first; or, when none did, opens one, reclaims the one
    that is out longest, has to wait, or finds that there is nothing to wait for. -/
theorem takeCandidate_cases (w : World σ) (who : Credentials) :
    (∃ c rest, w.pool.idle = c :: rest ∧
      w.takeCandidate D who = (.found c, w.onPool fun p => { p with idle := rest })) ∨
    (w.pool.idle = [] ∧ w.pool.active.length < w.pool.config.maxActive ∧
      w.takeCandidate D who = w.openCandidate D who) ∨
    (w.pool.idle = [] ∧ ∃ oldest rest, w.pool.active = oldest :: rest ∧
      w.pool.config.maxActive ≤ w.pool.active.length ∧
      w.pool.config.maxCheckoutTime < w.now - oldest.checkoutAt ∧
      w.takeCandidate D who =
        (.found ((w.onPool fun p => { p with active := rest }).reclaim D oldest).1,
          ((w.onPool fun p => { p with active := rest }).reclaim D oldest).2)) ∨
    (w.pool.idle = [] ∧ ∃ oldest rest, w.pool.active = oldest :: rest ∧
      w.pool.config.maxActive ≤ w.pool.active.length ∧
      ¬ w.pool.config.maxCheckoutTime < w.now - oldest.checkoutAt ∧
      w.takeCandidate D who = (.mustWait, w)) ∨
    (w.pool.idle = [] ∧ w.pool.active = [] ∧ w.pool.config.maxActive = 0 ∧
      w.takeCandidate D who =
        (.failed (.internal ("pool saturated with no active connections (max_active = " ++
          toString w.pool.config.maxActive ++ ")")), w)) := by
  rcases hi : w.pool.idle with _ | ⟨c, rest⟩
  · by_cases hlt : w.pool.active.length < w.pool.config.maxActive
    · refine Or.inr (Or.inl ⟨rfl, hlt, ?_⟩)
      simp only [takeCandidate, hi, if_pos hlt]
    · rcases ha : w.pool.active with _ | ⟨oldest, rest⟩
      · rw [ha, List.length_nil] at hlt
        refine Or.inr (Or.inr (Or.inr (Or.inr ⟨rfl, rfl, by omega, ?_⟩)))
        simp only [takeCandidate, hi, ha, List.length_nil, if_neg hlt]
      · have hle : w.pool.config.maxActive ≤ (oldest :: rest).length := by rw [← ha]; omega
        rw [ha] at hlt
        by_cases hover : w.pool.config.maxCheckoutTime < w.now - oldest.checkoutAt
        · refine Or.inr (Or.inr (Or.inl ⟨rfl, oldest, rest, rfl, hle, hover, ?_⟩))
          simp only [takeCandidate, hi, ha, if_neg hlt, if_pos hover]
        · refine Or.inr (Or.inr (Or.inr (Or.inl ⟨rfl, oldest, rest, rfl, hle, hover, ?_⟩)))
          simp only [takeCandidate, hi, ha, if_neg hlt, if_neg hover]
  · refine Or.inl ⟨c, rest, rfl, ?_⟩
    simp only [takeCandidate, hi]

/-- What a search finds, and the world that it leaves: the connection that came back first, a new one,
    or the one that was out longest under a new wrapper. -/
theorem takeCandidate_found {w w' : World σ} {who : Credentials} {c : Wrapper}
    (h : w.takeCandidate D who = (.found c, w')) :
    (∃ rest, w.pool.idle = c :: rest ∧ w' = w.onPool fun p => { p with idle := rest }) ∨
    (w.pool.idle = [] ∧ w.pool.active.length < w.pool.config.maxActive ∧
      c = w.pool.wrapped w.nextConn who w.now ∧ ∃ s,
        w.pool.source.newConnection D who w.nextConn w.drivers = (.ok (), s) ∧
        w' = { w with
          pool := { w.pool.enroll c with
            nextTicket := w.pool.nextTicket + 1
            nextRaw := w.pool.nextRaw + 1 }
          drivers := s }) ∨
    (w.pool.idle = [] ∧ ∃ oldest rest, w.pool.active = oldest :: rest ∧
      w.pool.config.maxActive ≤ w.pool.active.length ∧
      w.pool.config.maxCheckoutTime < w.now - oldest.checkoutAt ∧
      c = w.pool.rewrapped oldest w.now ∧
      w' = ((w.onPool fun p => { p with active := rest }).reclaim D oldest).2) := by
  rcases w.takeCandidate_cases D who with ⟨c', rest, hi, e⟩ | ⟨hi, hlt, e⟩ |
    ⟨hi, oldest, rest, ha, hle, hover, e⟩ | ⟨-, oldest, rest, -, -, -, e⟩ | ⟨-, -, -, e⟩
  · obtain ⟨hc, rfl⟩ := Prod.mk.inj (e.symm.trans h)
    obtain rfl := Candidate.found.inj hc
    exact Or.inl ⟨rest, hi, rfl⟩
  · rcases w.openCandidate_cases D who with ⟨err, s, -, e'⟩ | ⟨s, hs, e'⟩
    · nomatch (e'.symm.trans e.symm).trans h
    · obtain ⟨hc, rfl⟩ := Prod.mk.inj ((e'.symm.trans e.symm).trans h)
      obtain rfl := Candidate.found.inj hc
      exact Or.inr (Or.inl ⟨hi, hlt, rfl, s, hs, rfl⟩)
  · obtain ⟨hc, rfl⟩ := Prod.mk.inj (e.symm.trans h)
    exact Or.inr (Or.inr ⟨hi, oldest, rest, ha, hle, hover, (Candidate.found.inj hc).symm, rfl⟩)
  · nomatch e.symm.trans h
  · nomatch e.symm.trans h

/-- Why a search fails: nothing is idle, and a connection could not be opened or there is nothing to
    wait for. -/
theorem takeCandidate_failed {w w' : World σ} {who : Credentials} {e : PoolError}
    (h : w.takeCandidate D who = (.failed e, w')) :
    (w.pool.idle = [] ∧ w.pool.active.length < w.pool.config.maxActive ∧ ∃ cause s,
      w.pool.source.newConnection D who w.nextConn w.drivers = (.error cause, s) ∧
      e = .connection cause ∧
      w' = { w with
        pool := { w.pool with nextTicket := w.pool.nextTicket + 1 }
        drivers := s }) ∨
    (w.pool.idle = [] ∧ w.pool.active = [] ∧ w.pool.config.maxActive = 0 ∧
      (∃ detail, e = .internal detail) ∧ w' = w) := by
  rcases w.takeCandidate_cases D who with ⟨c', rest, -, e'⟩ | ⟨hi, hlt, e'⟩ |
    ⟨-, oldest, rest, -, -, -, e'⟩ | ⟨-, oldest, rest, -, -, -, e'⟩ | ⟨hi, ha, hz, e'⟩
  · nomatch e'.symm.trans h
  · rcases w.openCandidate_cases D who with ⟨cause, s, hs, e''⟩ | ⟨s, -, e''⟩
    · obtain ⟨hc, rfl⟩ := Prod.mk.inj ((e''.symm.trans e'.symm).trans h)
      exact Or.inl ⟨hi, hlt, cause, s, hs, (Candidate.failed.inj hc).symm, rfl⟩
    · nomatch (e''.symm.trans e'.symm).trans h
  · nomatch e'.symm.trans h
  · nomatch e'.symm.trans h
  · obtain ⟨hc, rfl⟩ := Prod.mk.inj (e'.symm.trans h)
    exact Or.inr ⟨hi, ha, hz, ⟨_, (Candidate.failed.inj hc).symm⟩, rfl⟩

/-- When a search has to wait: nothing is idle, as many connections are out as may be, and the one that
    is out longest is not overdue.  Nothing has changed then. -/
theorem takeCandidate_mustWait {w w' : World σ} {who : Credentials}
    (h : w.takeCandidate D who = (.mustWait, w')) :
    w' = w ∧ w.pool.idle = [] ∧ ∃ oldest rest, w.pool.active = oldest :: rest ∧
      w.pool.config.maxActive ≤ w.pool.active.length ∧
      ¬ w.pool.config.maxCheckoutTime < w.now - oldest.checkoutAt := by
  rcases w.takeCandidate_cases D who with ⟨c', rest, -, e⟩ | ⟨hi, hlt, e⟩ |
    ⟨-, oldest, rest, -, -, -, e⟩ | ⟨hi, oldest, rest, ha, hle, hover, e⟩ | ⟨hi, ha, hz, e⟩
  · nomatch e.symm.trans h
  · rcases w.openCandidate_cases D who with ⟨cause, s, -, e'⟩ | ⟨s, -, e'⟩
    · nomatch (e'.symm.trans e.symm).trans h
    · nomatch (e'.symm.trans e.symm).trans h
  · nomatch e.symm.trans h
  · exact ⟨(Prod.mk.inj (e.symm.trans h)).2.symm, hi, oldest, rest, ha, hle, hover⟩
  · nomatch e.symm.trans h

/-! ## Changes of hands -/

/-- What is reclaimed is wrapped anew. -/
theorem reclaim_fst (w : World σ) (overdue : Wrapper) :
    (w.reclaim D overdue).1 = w.pool.rewrapped overdue w.now := rfl

@[simp] theorem reclaim_now (w : World σ) (overdue : Wrapper) :
    (w.reclaim D overdue).2.now = w.now := rfl

/-- A reclaimed connection loses its old wrapper and gains its new one in one step. -/
theorem reclaim_pool (w : World σ) (overdue : Wrapper) :
    (w.reclaim D overdue).2.pool = ((w.pool.count fun k => { k with
      claimedOverdue := k.claimedOverdue + 1
      overdueCheckoutTime := k.overdueCheckoutTime + (w.now - overdue.checkoutAt)
      checkoutTime := k.checkoutTime + (w.now - overdue.checkoutAt) }).invalidate overdue.id).enroll
        (w.pool.rewrapped overdue w.now) := rfl

@[simp] theorem reclaim_drivers (w : World σ) (overdue : Wrapper) :
    (w.reclaim D overdue).2.drivers =
      Drivers.quietly (D.rollbackIfManual overdue.conn) w.drivers := rfl

/-- A candidate as it stands on the active list: stamped for its new holder. -/
def stamped (w : World σ) (who : Credentials) (c : Wrapper) : Wrapper :=
  { c with
    identity := ⟨w.pool.source.config.url, who⟩
    checkoutAt := w.now
    lastUsedAt := w.now }

@[simp] theorem handOut_now (w : World σ) (who : Credentials) (startedAt : Instant) (c : Wrapper) :
    (w.handOut who startedAt c).2.now = w.now := rfl

theorem handOut_pool (w : World σ) (who : Credentials) (startedAt : Instant) (c : Wrapper) :
    (w.handOut who startedAt c).2.pool =
      { w.pool with
        active := w.pool.active ++ [w.stamped who c]
        counters := { w.pool.counters with
          requests := w.pool.counters.requests + 1
          requestTime := w.pool.counters.requestTime + (w.now - startedAt) } } := rfl

@[simp] theorem handOut_drivers (w : World σ) (who : Credentials) (startedAt : Instant)
    (c : Wrapper) : (w.handOut who startedAt c).2.drivers = w.drivers := rfl

/-! ## The loop -/

/-- One turn of the loop: the search ends the pass, or its candidate is handed out, or the candidate is
    thrown away and the rest of the budget decides, if there is telling what that is. -/
theorem tryOut_turn {who : Credentials} {startedAt : Instant} {G : PassEnd × World σ → Prop}
    {budget r : Nat} {w : World σ}
    (failed : ∀ e w', w.takeCandidate D who = (.failed e, w') → G (.failed e, w'))
    (wait : ∀ w', w.takeCandidate D who = (.mustWait, w') → G (.mustWait r, w'))
    (good : ∀ c w₁ w₂, w.takeCandidate D who = (.found c, w₁) → w₁.isGood D c = (true, w₂) →
      G (.handedOut (w₂.handOut who startedAt c).1, (w₂.handOut who startedAt c).2))
    (bad : ∀ c w₁ w₂, w.takeCandidate D who = (.found c, w₁) → w₁.isGood D c = (false, w₂) →
      G (if (w₂.reject D c).pool.config.badBudget < wordLimit then
          match budget with
          | 0 => (.failed (.exhausted (r + 1)), w₂.reject D c)
          | b + 1 => (w₂.reject D c).tryOut D who startedAt b (r + 1)
        else (.overflowed, w₂.reject D c))) :
    G (w.tryOut D who startedAt budget r) := by
  unfold tryOut
  rcases ht : w.takeCandidate D who with ⟨candidate, w₁⟩
  cases candidate with
  | failed e => exact failed e w₁ ht
  | mustWait => exact wait w₁ ht
  | found c =>
    rcases hg : w₁.isGood D c with ⟨fit, w₂⟩
    cases fit with
    | true =>
      simp only [hg]
      exact good c w₁ w₂ ht hg
    | false =>
      simp only [hg]
      exact bad c w₁ w₂ ht hg

/-- **The rule of the loop.**  `I r` holds before every search of the pass, `r` candidates having been
    bad so far; then `Q` holds of how the pass ends. -/
theorem tryOut_rule {who : Credentials} {startedAt : Instant}
    {I : Nat → World σ → Prop} {Q : PassEnd → World σ → Prop}
    (failed : ∀ {r w e w'}, I r w → w.takeCandidate D who = (.failed e, w') → Q (.failed e) w')
    (wait : ∀ {r w w'}, I r w → w.takeCandidate D who = (.mustWait, w') → Q (.mustWait r) w')
    (good : ∀ {r w c w₁ w₂}, I r w → w.takeCandidate D who = (.found c, w₁) →
      w₁.isGood D c = (true, w₂) →
      Q (.handedOut (w₂.handOut who startedAt c).1) (w₂.handOut who startedAt c).2)
    (bad : ∀ {r w c w₁ w₂}, I r w → w.takeCandidate D who = (.found c, w₁) →
      w₁.isGood D c = (false, w₂) → I (r + 1) (w₂.reject D c))
    (exhausted : ∀ {r w}, I (r + 1) w → Q (.failed (.exhausted (r + 1))) w)
    (overflowed : ∀ {r w}, I (r + 1) w → Q .overflowed w) :
    ∀ (budget r : Nat) (w : World σ), I r w →
      Q (w.tryOut D who startedAt budget r).1 (w.tryOut D who startedAt budget r).2 := by
  intro budget
  induction budget with
  | zero =>
    intro r w hw
    refine tryOut_turn D (G := fun end_ => Q end_.1 end_.2) ?_ ?_ ?_ ?_
    · exact fun e w' ht => failed hw ht
    · exact fun w' ht => wait hw ht
    · exact fun c w₁ w₂ ht hg => good hw ht hg
    · intro c w₁ w₂ ht hg
      split
      · exact exhausted (bad hw ht hg)
      · exact overflowed (bad hw ht hg)
  | succ budget ih =>
    intro r w hw
    refine tryOut_turn D (G := fun end_ => Q end_.1 end_.2) ?_ ?_ ?_ ?_
    · exact fun e w' ht => failed hw ht
    · exact fun w' ht => wait hw ht
    · exact fun c w₁ w₂ ht hg => good hw ht hg
    · intro c w₁ w₂ ht hg
      split
      · exact ih (r + 1) _ (bad hw ht hg)
      · exact overflowed (bad hw ht hg)

end World

/-! ## What is left of the lists -/

/-- Two states of a pool between which nobody has changed anything but the lists and the counters;
    identities have only been given out. -/
structure Pool.SameTerms (p p' : Pool) : Prop where
  source : p'.source = p.source
  config : p'.config = p.config
  expected : p'.expected = p.expected
  closed : p'.closed = p.closed
  nextWrapper : p.nextWrapper ≤ p'.nextWrapper

/-- What a pass leaves of a pool while it has nothing in hand. -/
structure Pool.Pruned (p p' : Pool) : Prop extends Pool.SameTerms p p' where
  active : p'.active <:+ p.active
  idle : p'.idle <:+ p.idle

/-- A wrapper that a search on a pool can find: one from the idle list, or one that is new. -/
def Pool.Offers (p : Pool) (c : Wrapper) : Prop :=
  c ∈ p.idle ∨ p.nextWrapper ≤ c.id

/-- What a hand-out leaves of a pool: the candidate joins the active list, as the handle's wrapper. -/
structure Pool.HandsOut (p p' : Pool) (h : Handle) : Prop extends Pool.SameTerms p p' where
  active : ∃ rest c, p'.active = rest ++ [c] ∧ rest <:+ p.active ∧ c.handle = h ∧
    ∃ c₀, p.Offers c₀ ∧ c₀.id = h.id
  idle : p'.idle <:+ p.idle

namespace Pool

theorem SameTerms.refl (p : Pool) : p.SameTerms p :=
  ⟨rfl, rfl, rfl, rfl, Nat.le_refl _⟩

theorem SameTerms.trans {p p₁ p₂ : Pool} (h : p.SameTerms p₁) (h' : p₁.SameTerms p₂) :
    p.SameTerms p₂ where
  source := h'.source.trans h.source
  config := h'.config.trans h.config
  expected := h'.expected.trans h.expected
  closed := h'.closed.trans h.closed
  nextWrapper := Nat.le_trans h.nextWrapper h'.nextWrapper

theorem Pruned.refl (p : Pool) : p.Pruned p :=
  ⟨SameTerms.refl p, List.suffix_refl _, List.suffix_refl _⟩

theorem Pruned.trans {p p₁ p₂ : Pool} (h : p.Pruned p₁) (h' : p₁.Pruned p₂) : p.Pruned p₂ :=
  ⟨h.toSameTerms.trans h'.toSameTerms, h'.active.trans h.active, h'.idle.trans h.idle⟩

/-- What a pruned pool offers was offered before. -/
theorem Pruned.offers {p p₁ : Pool} {c : Wrapper} (h : p.Pruned p₁) (hc : p₁.Offers c) :
    p.Offers c := by
  rcases hc with hc | hc
  · exact Or.inl (h.idle.subset hc)
  · exact Or.inr (Nat.le_trans h.nextWrapper hc)

/-- Taking a wrapper's validity and counting something do not touch the lists. -/
theorem pruned_invalidate_count (p : Pool) (f : Counters → Counters) (id : Nat) :
    p.Pruned ((p.count f).invalidate id) :=
  ⟨⟨rfl, rfl, rfl, rfl, Nat.le_refl _⟩, List.suffix_refl _, List.suffix_refl _⟩

end Pool

namespace World

variable {σ : Type} (D : Drivers σ)

/-- A search that finds something prunes the pool, and finds what the pool offers. -/
theorem takeCandidate_found_pruned {w w' : World σ} {who : Credentials} {c : Wrapper}
    (h : w.takeCandidate D who = (.found c, w')) : w.pool.Pruned w'.pool ∧ w.pool.Offers c := by
  rcases takeCandidate_found D h with ⟨rest, hi, rfl⟩ | ⟨hi, hlt, rfl, s, hs, rfl⟩ |
    ⟨hi, oldest, rest, ha, hle, hover, rfl, rfl⟩
  · refine ⟨⟨⟨rfl, rfl, rfl, rfl, Nat.le_refl _⟩, List.suffix_refl _, ?_⟩, Or.inl ?_⟩
    · rw [hi]
      exact List.suffix_cons c rest
    · rw [hi]
      exact List.mem_cons_self
  · exact ⟨⟨⟨rfl, rfl, rfl, rfl, Nat.le_succ _⟩, List.suffix_refl _, List.suffix_refl _⟩,
      Or.inr (Nat.le_refl _)⟩
  · refine ⟨⟨⟨rfl, rfl, rfl, rfl, Nat.le_succ _⟩, ?_, List.suffix_refl _⟩, Or.inr (Nat.le_refl _)⟩
    rw [ha]
    exact List.suffix_cons oldest rest

theorem takeCandidate_failed_pruned {w w' : World σ} {who : Credentials} {e : PoolError}
    (h : w.takeCandidate D who = (.failed e, w')) : w.pool.Pruned w'.pool := by
  rcases takeCandidate_failed D h with ⟨hi, hlt, cause, s, hs, rfl, rfl⟩ | ⟨hi, ha, hz, -, rfl⟩
  · exact ⟨⟨rfl, rfl, rfl, rfl, Nat.le_refl _⟩, List.suffix_refl _, List.suffix_refl _⟩
  · exact Pool.Pruned.refl _

/-- **What a pass does to a pool**: it hands one wrapper out, or only prunes the lists. -/
theorem tryOut_pruned (who : Credentials) (startedAt : Instant) (budget r : Nat) (w : World σ) :
    match (w.tryOut D who startedAt budget r).1 with
    | .handedOut h => w.pool.HandsOut (w.tryOut D who startedAt budget r).2.pool h
    | _ => w.pool.Pruned (w.tryOut D who startedAt budget r).2.pool := by
  refine tryOut_rule D (I := fun _ w₁ => w.pool.Pruned w₁.pool)
    (Q := fun e w' => match e with
      | .handedOut h => w.pool.HandsOut w'.pool h
      | _ => w.pool.Pruned w'.pool) ?_ ?_ ?_ ?_ ?_ ?_ budget r w (Pool.Pruned.refl _)
  · intro r w₁ e w' hw ht
    exact hw.trans (takeCandidate_failed_pruned D ht)
  · intro r w₁ w' hw ht
    rw [(takeCandidate_mustWait D ht).1]
    exact hw
  · intro r w₁ c w₂ w₃ hw ht hg
    have hp := pool_of_isGood D hg
    have hpruned := hw.trans (takeCandidate_found_pruned D ht).1
    rw [← hp] at hpruned
    have hoffer := hw.offers (takeCandidate_found_pruned D ht).2
    exact ⟨⟨hpruned.source, hpruned.config, hpruned.expected, hpruned.closed, hpruned.nextWrapper⟩,
      ⟨w₃.pool.active, w₃.stamped who c, rfl, hpruned.active, rfl, c, hoffer, rfl⟩, hpruned.idle⟩
  · intro r w₁ c w₂ w₃ hw ht hg
    have hp := pool_of_isGood D hg
    rw [reject_pool, hp]
    exact (hw.trans (takeCandidate_found_pruned D ht).1).trans (Pool.pruned_invalidate_count ..)
  · intro r w₁ hw
    exact hw
  · intro r w₁ hw
    exact hw

variable {D} in
/-- A pass that hands nothing out only prunes the lists. -/
theorem pruned_of_tryOut {who : Credentials} {startedAt : Instant} {budget n : Nat} {w w' : World σ}
    {r : PassEnd} (ht : w.tryOut D who startedAt budget n = (r, w')) (hr : ∀ h, r ≠ .handedOut h) :
    w.pool.Pruned w'.pool := by
  have hpass := w.tryOut_pruned D who startedAt budget n
  rw [ht] at hpass
  cases r with
  | handedOut h => exact absurd rfl (hr h)
  | mustWait _ | failed _ | overflowed => exact hpass

/-- A search takes no time. -/
theorem takeCandidate_found_now {w w' : World σ} {who : Credentials} {c : Wrapper}
    (h : w.takeCandidate D who = (.found c, w')) : w'.now = w.now := by
  rcases takeCandidate_found D h with ⟨rest, -, rfl⟩ | ⟨-, -, -, s, -, rfl⟩ |
    ⟨-, oldest, rest, -, -, -, -, rfl⟩ <;> rfl

/-- A pass takes no time. -/
theorem tryOut_now (who : Credentials) (startedAt : Instant) (budget r : Nat) (w : World σ) :
    (w.tryOut D who startedAt budget r).2.now = w.now := by
  refine tryOut_rule D (I := fun _ w₁ => w₁.now = w.now) (Q := fun _ w' => w'.now = w.now)
    ?_ ?_ ?_ ?_ ?_ ?_ budget r w rfl
  · intro r w₁ e w' hw ht
    rcases takeCandidate_failed D ht with ⟨-, -, cause, s, -, -, rfl⟩ | ⟨-, -, -, -, rfl⟩
    all_goals exact hw
  · intro r w₁ w' hw ht
    rw [(takeCandidate_mustWait D ht).1]
    exact hw
  · intro r w₁ c w₂ w₃ hw ht hg
    exact (now_of_isGood D hg).trans ((takeCandidate_found_now D ht).trans hw)
  · intro r w₁ c w₂ w₃ hw ht hg
    exact (now_of_isGood D hg).trans ((takeCandidate_found_now D ht).trans hw)
  · intro r w₁ hw
    exact hw
  · intro r w₁ hw
    exact hw

/-- A pass changes nothing of a pool but its lists and counters. -/
theorem tryOut_sameTerms (who : Credentials) (startedAt : Instant) (budget r : Nat) (w : World σ) :
    w.pool.SameTerms (w.tryOut D who startedAt budget r).2.pool := by
  have hpass := w.tryOut_pruned D who startedAt budget r
  split at hpass
  · exact hpass.toSameTerms
  · exact hpass.toSameTerms

end World

end ConnPool
