/-
  All or nothing.

  A pass of an acquisition either comes to a decision or does nothing at all.  It does nothing if its
  first search has to wait (`observe_of_waiting`): the acquisition is in the queue, the time that it
  waited before is counted, and that it waits, but no driver was called and no connection moved.  Once a
  pass has found something it does not wait, and it reclaims one connection at most
  (`reclaimedBy_cases`), since there is room to open others when one was reclaimed.  It ends with a handle
  or an error, with one exception: it breaks off if a candidate was bad and the budget for bad ones does
  not fit in a word (`overflowed_iff`, `breaks_off_undecided`).

  That somebody waits only while no connection is overdue is more than the search sees, which looks at
  the one that has been out for longest; the others follow since the active list is in order.

  `all_or_nothing` says this of every pass of every run.
-/
import ConnPool.Proofs.Bystander
import ConnPool.Proofs.Increments
import ConnPool.Proofs.Seniority

namespace ConnPool

variable {σ τ : Type}

namespace PassEnd

/-- What the user of an acquisition sees of the end of a pass. -/
def outcome : PassEnd → Outcome
  | .handedOut h => .acquired h
  | .mustWait _ => .waiting
  | .failed e => .refused e
  | .overflowed => .overflowed

variable {r : PassEnd}

@[simp] theorem outcome_eq_acquired {h : Handle} : r.outcome = .acquired h ↔ r = .handedOut h := by
  cases r <;> simp [outcome]

@[simp] theorem outcome_eq_refused {e : PoolError} : r.outcome = .refused e ↔ r = .failed e := by
  cases r <;> simp [outcome]

@[simp] theorem outcome_eq_overflowed : r.outcome = .overflowed ↔ r = .overflowed := by
  cases r <;> simp [outcome]

/-- The decisions. -/
theorem IsDecision.cases (h : r.IsDecision) : (∃ hd, r.outcome = .acquired hd) ∨
    (∃ err, r.outcome = .refused (.connection err)) ∨ (∃ n, r.outcome = .refused (.exhausted n)) ∨
    r.outcome = .overflowed := by
  match r, h with
  | .handedOut hd, _ => exact Or.inl ⟨hd, rfl⟩
  | .failed (.connection err), _ => exact Or.inr (Or.inl ⟨err, rfl⟩)
  | .failed (.exhausted n), _ => exact Or.inr (Or.inr (Or.inl ⟨n, rfl⟩))
  | .overflowed, _ => exact Or.inr (Or.inr (Or.inr rfl))

theorem IsDecision.outcome_ne_waiting (h : r.IsDecision) : r.outcome ≠ .waiting := by
  rcases h.cases with ⟨hd, e⟩ | ⟨err, e⟩ | ⟨n, e⟩ | e
  all_goals
    rw [e]
    exact nofun

end PassEnd

/-- What was counted does not matter to what a search reclaims. -/
theorem World.reclaims_counting {w : World τ} {c : Wrapper} (k : Counters) :
    (w.counting k).Reclaims c ↔ w.Reclaims c :=
  ⟨fun h => ⟨h.idle, h.full, h.oldest, h.overdue⟩, fun h => ⟨h.idle, h.full, h.oldest, h.overdue⟩⟩

/-- A search reclaims the first of the active list, so not two. -/
theorem World.at_most_one_reclaimed {w : World τ} {l : List Wrapper} (hnodup : l.Nodup)
    (h : ∀ c ∈ l, w.Reclaims c) : l = [] ∨ ∃ c, l = [c] ∧ w.Reclaims c := by
  rcases l with _ | ⟨c, rest⟩
  · exact Or.inl rfl
  · have hfirst := h c List.mem_cons_self
    rcases rest with _ | ⟨d, rest⟩
    · exact Or.inr ⟨c, rfl, hfirst⟩
    · have hsecond := h d (List.mem_cons_of_mem c List.mem_cons_self)
      obtain rfl : c = d := Option.some.inj (hfirst.oldest.symm.trans hsecond.oldest)
      exact absurd List.mem_cons_self (List.nodup_cons.1 hnodup).1

namespace Machine

variable {D : Drivers σ} {m m₀ : Machine (Observed σ)} {e : Event σ} {key : Key} {a : Acquisition}

/-! ## The pass of an event -/

/-- The machine on which a pass is made is that before the event, but that nobody waits under the key
    any more, and that the slice of the wait was counted. -/
theorem eq_of_pass? (hpass : m.pass? e = some (m₀, key, a)) : m₀ = { m with
    world := m.world.counting { waitTime := .total (m.slicesBy e) }
    waiters := without key m.waiters } := by
  rcases pass?_cases hpass with ⟨who, rfl, hadmits, rfl, -⟩ | ⟨rfl, p, hk, hd, rfl, -⟩
  · simp only [admits, Bool.and_eq_true] at hadmits
    have habsent : key ∉ m₀.waiters.map (·.1) := fun h =>
      isFree_iff.1 hadmits.2 (List.mem_append_left _ h)
    rw [without_eq_self habsent]
    rfl
  · simp only [slicesBy, hk, if_pos hd, Duration.total_singleton]
    rfl

/-- An acquisition that goes on has waited, and one that begins has not. -/
theorem waited_iff (hwaited : m.AllWaited) (hpass : m.pass? e = some (m₀, key, a)) :
    a.waited = true ↔ e = .resume key := by
  rcases pass?_cases hpass with ⟨who, rfl, -, -, rfl⟩ | ⟨rfl, p, hk, -, -, rfl⟩
  · exact ⟨nofun, nofun⟩
  · exact ⟨fun _ => rfl, fun _ => hwaited key p (mem_of_lookup hk)⟩

theorem fits_of_pass? (hfits : m.world.pool.Fits) (hpass : m.pass? e = some (m₀, key, a)) :
    m₀.world.pool.Fits := by
  rw [eq_of_pass? hpass]
  exact ⟨hfits.idle, hfits.total⟩

/-- A pass of an open pool comes to what its searches come to. -/
theorem pass_of_open (P : Drivers τ) {m : Machine τ} (hopen : m.world.pool.closed = false) :
    (m.pass P key a).1 = (m.world.tryOut P a.who a.startedAt
      (m.world.pool.config.badBudget - a.rejected) a.rejected).1.outcome := by
  rcases ht : m.world.tryOut P a.who a.startedAt (m.world.pool.config.badBudget - a.rejected)
    a.rejected with ⟨r, w⟩
  cases r <;> simp [pass, hopen, ht, PassEnd.outcome]

/-- A pass of an open pool gives what it hands out to its user. -/
theorem pass_of_handedOut (P : Drivers τ) {m : Machine τ} (hopen : m.world.pool.closed = false)
    {h : Handle} {w : World τ} (ht : m.world.tryOut P a.who a.startedAt
      (m.world.pool.config.badBudget - a.rejected) a.rejected = (.handedOut h, w)) :
    m.pass P key a = (.acquired h, { m with world := w, handles := m.handles ++ [(key, h)] }) := by
  simp only [pass, hopen, ht, Bool.false_eq_true, if_false]

/-- A pass of an open pool that fails leaves what its searches have left. -/
theorem pass_of_failed (P : Drivers τ) {m : Machine τ} (hopen : m.world.pool.closed = false)
    {err : PoolError} {w : World τ} (ht : m.world.tryOut P a.who a.startedAt
      (m.world.pool.config.badBudget - a.rejected) a.rejected = (.failed err, w)) :
    m.pass P key a = (.refused err, { m with world := w }) := by
  simp only [pass, hopen, ht, Bool.false_eq_true, if_false]

/-! ## A pass that waits -/

/-- The waiter that an acquisition becomes when it has to wait. -/
def parked (m : Machine τ) (a : Acquisition) : Waiter where
  acquisition := { a with waited := true }
  since := m.world.now
  slice := m.world.pool.config.timeToWait

/-- What a machine is when all that an event did was to let its acquisition wait. -/
def parking (m : Machine (Observed σ)) (e : Event σ) (key : Key) (a : Acquisition) :
    Machine (Observed σ) :=
  { m with
    world := m.world.counting {
      waitTime := .total (m.slicesBy e)
      hadToWait := if a.waited then 0 else 1 }
    waiters := without key m.waiters ++ [(key, m.parked a)] }

/-- **An acquisition that has to wait has done nothing else.** -/
theorem observe_of_waiting (hfits : m.world.pool.Fits) (hpass : m.pass? e = some (m₀, key, a))
    (hwaiting : (m.observe D e).1 = .waiting) :
    m₀.world.takeCandidate (D.observed .pool) a.who = (.mustWait, m₀.world) ∧
      (m.observe D e).2 = m.parking e key a := by
  rw [observe_of_pass? D hpass] at hwaiting ⊢
  have hopen : m₀.world.pool.closed = false := by
    rw [Bool.eq_false_iff]
    intro hclosed
    simp [pass, hclosed] at hwaiting
  have hout := hwaiting
  rw [pass_of_open _ hopen] at hout
  rcases m₀.world.tryOut_first (D.observed .pool) a.who a.startedAt
    (m₀.world.pool.config.badBudget - a.rejected) a.rejected (fits_of_pass? hfits hpass) with
    ⟨-, hdecision⟩ | ⟨err, w', -, ht⟩ | ⟨hsearch, ht⟩
  · exact absurd hout hdecision.outcome_ne_waiting
  · rw [ht] at hout
    cases hout
  · refine ⟨hsearch, ?_⟩
    have hafter : (m₀.pass (D.observed .pool) key a).2 = m.parking e key a := by
      simp only [pass, hopen, ht, Bool.false_eq_true, if_false]
      rw [eq_of_pass? hpass]
      by_cases hwaited : a.waited = true
      · simp only [parking, parked, if_pos hwaited]
        rfl
      · simp only [parking, parked, if_neg hwaited]
        rfl
    have hwaits : (m.parking e key a).Waits key :=
      waits_of_mem (List.mem_append_right _ List.mem_cons_self)
    rw [hafter, settle_of_waits _ hwaits]

/-! ## What a pass reclaims -/

/-- A pass leaves everything on the active list that its first search would not reclaim. -/
theorem pass_keeps (D : Drivers σ) {m : Machine (Observed σ)} (hfits : m.world.pool.Fits) (key : Key)
    (a : Acquisition) {c : Wrapper} (hc : c ∈ m.world.pool.active) (hnot : ¬ m.world.Reclaims c) :
    c ∈ (m.pass (D.observed .pool) key a).2.world.pool.active := by
  rcases m.pass_cases (D.observed .pool) key a with ⟨-, e⟩ | ⟨-, budget, ⟨h, w, ht, e⟩ |
    ⟨err, w, ht, e⟩ | ⟨r, w, f, ht, e⟩ | ⟨w, ht, e⟩⟩
  · rw [e]
    exact hc
  all_goals
    have hkeeps := (m.world.tryOut_conduct D a.who hfits a.startedAt budget a.rejected).keeps c hc hnot
    rw [ht] at hkeeps
    rw [e]
    exact hkeeps

section Reclaimed

variable {os : List Outcome}

/-- What an acquisition reclaims was the first of the active list, and overdue, and there was nothing
    else to be had. -/
theorem reclaims_of_mem (howned : Owned os m) (hkeyed : m.Keyed) (hheld : m.Held)
    (hfits : m.world.pool.Fits) (hpass : m.pass? e = some (m₀, key, a)) {c : Wrapper}
    (hc : c ∈ m.reclaimedBy D e) : m.world.Reclaims c := by
  simp only [reclaimedBy, hpass, List.mem_filter, decide_eq_true_eq] at hc
  obtain ⟨hbefore, hafter⟩ := hc
  obtain ⟨-, hactive, -⟩ := observe_react (D := D) howned hkeyed hheld (admits_of_pass? hpass)
    (react_observed_of_pass? D hpass)
  -- if the first search would not reclaim it, the pass leaves it where it is
  by_contra hnot
  refine hafter ?_
  rw [hactive]
  refine pass_keeps D (fits_of_pass? hfits hpass) key a ?_ fun hreclaims => hnot ?_
  · rw [eq_of_pass? hpass]
    exact hbefore
  · rw [eq_of_pass? hpass] at hreclaims
    exact (World.reclaims_counting _).1 hreclaims

/-- **An acquisition reclaims one connection at most.** -/
theorem reclaimedBy_cases (howned : Owned os m) (hkeyed : m.Keyed) (hheld : m.Held)
    (hfits : m.world.pool.Fits) (hpass : m.pass? e = some (m₀, key, a)) :
    m.reclaimedBy D e = [] ∨ ∃ c, m.reclaimedBy D e = [c] ∧ m.world.Reclaims c := by
  refine World.at_most_one_reclaimed ?_ fun c hc =>
    reclaims_of_mem howned hkeyed hheld hfits hpass hc
  simp only [reclaimedBy, hpass]
  exact (active_nodup howned).filter _

end Reclaimed

/-! ## Every pass -/

/-- What the pass of an event comes to, that goes on with the acquisition `a` under the key. -/
structure AllOrNothing (D : Drivers σ) (m : Machine (Observed σ)) (e : Event σ) (key : Key)
    (a : Acquisition) : Prop where
  /-- The acquisition waits only while nothing can be handed out … -/
  saturated : (m.observe D e).1 = .waiting → m.world.pool.idle = [] ∧
    m.world.pool.active.length = m.world.pool.config.maxActive ∧
    1 ≤ m.world.pool.config.maxActive ∧
    ∀ c ∈ m.world.pool.active, ¬ m.world.pool.config.maxCheckoutTime < m.world.now - c.checkoutAt
  /-- … and then nothing happens but that it waits, and what is counted of this.  The drivers are a part
      of the machine, with the log of what they were asked. -/
  nothing : (m.observe D e).1 = .waiting → (m.observe D e).2 = m.parking e key a
  /-- It is counted among those that wait when it waits for the first time. -/
  waited : a.waited = true ↔ e = .resume key
  /-- What is found is handed out or thrown away. -/
  obtained : m.world.pool.closed = false → (m.world.Obtains (D.observed .pool) a.who ↔
    m.rejectedBy D e ≠ [] ∨ ∃ h, (m.observe D e).1 = .acquired h)
  /-- When something was found the acquisition is over: it ends with a handle or an error, or it breaks
      off, … -/
  decided : m.world.pool.closed = false → m.world.Obtains (D.observed .pool) a.who →
    (∃ h, (m.observe D e).1 = .acquired h) ∨
    (∃ err, (m.observe D e).1 = .refused (.connection err)) ∨
    (∃ n, (m.observe D e).1 = .refused (.exhausted n)) ∨
    (m.observe D e).1 = .overflowed
  /-- … which it does just when a candidate was bad and the budget does not fit in a word. -/
  breaksOff : (m.observe D e).1 = .overflowed ↔
    wordLimit ≤ m.world.pool.config.badBudget ∧ m.rejectedBy D e ≠ []
  /-- One connection is reclaimed at most, and what is reclaimed is counted. -/
  reclaims : (m.reclaimedBy D e).length ≤ 1
  claimed : (m.observe D e).2.world.pool.counters.claimedOverdue =
    m.world.pool.counters.claimedOverdue + (m.reclaimedBy D e).length
  /-- Only a pool that never has a connection out has nothing to wait for. -/
  internal : ∀ detail, (m.observe D e).1 = .refused (.internal detail) →
    m.world.pool.config.maxActive = 0

/-- When a search has to wait. -/
theorem saturated_of_mustWait {P : Drivers τ} {w : World τ} {who : Credentials} (hfits : w.pool.Fits)
    (horder : InOrder w.now w.pool.active) (ht : w.takeCandidate P who = (.mustWait, w)) :
    w.pool.idle = [] ∧ w.pool.active.length = w.pool.config.maxActive ∧
      1 ≤ w.pool.config.maxActive ∧
      ∀ c ∈ w.pool.active, ¬ w.pool.config.maxCheckoutTime < w.now - c.checkoutAt := by
  obtain ⟨-, hi, oldest, rest, ha, hfull, hnot⟩ := World.takeCandidate_mustWait P ht
  have htotal := hfits.total
  have hlength : w.pool.active.length = w.pool.config.maxActive := by omega
  refine ⟨hi, hlength, ?_, ?_⟩
  · rw [← hlength, ha, List.length_cons]
    omega
  -- the search has looked at the first connection only
  · rw [ha] at horder ⊢
    exact horder.none_overdue hnot

/-- What the pass of an event finds, and what it comes to. -/
theorem observe_of_open (hpass : m.pass? e = some (m₀, key, a))
    (hopen : m.world.pool.closed = false) :
    (m.observe D e).1 = (m₀.world.tryOut (D.observed .pool) a.who a.startedAt
      (m.world.pool.config.badBudget - a.rejected) a.rejected).1.outcome ∧
    m.rejectedBy D e = m₀.world.rejects (D.observed .pool) a.who
      (m.world.pool.config.badBudget - a.rejected) ∧
    (m₀.world.Obtains (D.observed .pool) a.who ↔ m.world.Obtains (D.observed .pool) a.who) := by
  have hopen₀ : m₀.world.pool.closed = false := by
    rw [eq_of_pass? hpass]
    exact hopen
  have hconfig : m₀.world.pool.config = m.world.pool.config := by
    rw [eq_of_pass? hpass]
    rfl
  refine ⟨?_, ?_, ?_⟩
  · rw [observe_of_pass? D hpass, ← hconfig]
    exact pass_of_open _ hopen₀
  · simp [rejectedBy, hpass, rejectsOf, hopen₀, hconfig]
  · rw [eq_of_pass? hpass]
    exact World.obtains_counting _

/-- A pass of a closed pool is refused, and finds nothing. -/
theorem observe_of_shut (hpass : m.pass? e = some (m₀, key, a))
    (hclosed : m.world.pool.closed = true) :
    (m.observe D e).1 = .refused (if a.waited then .cancelled else .closed) ∧
      m.rejectedBy D e = [] := by
  have hclosed₀ : m₀.world.pool.closed = true := by
    rw [eq_of_pass? hpass]
    exact hclosed
  constructor
  · rw [observe_of_pass? D hpass]
    simp only [pass, hclosed₀, if_true]
  · simp [rejectedBy, hpass, rejectsOf, hclosed₀]

section Passes

variable (hfits : m.world.pool.Fits) (hpass : m.pass? e = some (m₀, key, a))
include hfits hpass

/-- An acquisition that has to wait cannot be handed anything. -/
theorem saturated_of_waiting (horder : InOrder m.world.now m.world.pool.active)
    (hwaiting : (m.observe D e).1 = .waiting) : m.world.pool.idle = [] ∧
      m.world.pool.active.length = m.world.pool.config.maxActive ∧
      1 ≤ m.world.pool.config.maxActive ∧
      ∀ c ∈ m.world.pool.active, ¬ m.world.pool.config.maxCheckoutTime < m.world.now - c.checkoutAt := by
  obtain ⟨hsearch, -⟩ := observe_of_waiting hfits hpass hwaiting
  have horder₀ : InOrder m₀.world.now m₀.world.pool.active := by
    rw [eq_of_pass? hpass]
    exact horder
  have hsaturated := saturated_of_mustWait (fits_of_pass? hfits hpass) horder₀ hsearch
  rw [eq_of_pass? hpass] at hsaturated
  exact hsaturated

/-- An acquisition that finds something comes to a decision. -/
theorem decided_of_obtains (hopen : m.world.pool.closed = false)
    (hobtains : m.world.Obtains (D.observed .pool) a.who) :
    (∃ h, (m.observe D e).1 = .acquired h) ∨
    (∃ err, (m.observe D e).1 = .refused (.connection err)) ∨
    (∃ n, (m.observe D e).1 = .refused (.exhausted n)) ∨
    (m.observe D e).1 = .overflowed := by
  obtain ⟨hout, -, hsearch⟩ := observe_of_open (D := D) hpass hopen
  obtain ⟨c, w, hfound⟩ := hsearch.2 hobtains
  rw [hout]
  rcases m₀.world.tryOut_first (D.observed .pool) a.who a.startedAt
    (m.world.pool.config.badBudget - a.rejected) a.rejected (fits_of_pass? hfits hpass) with
    ⟨-, hdecision⟩ | ⟨err, w', ht, -⟩ | ⟨ht, -⟩
  · exact hdecision.cases
  -- a search that finds something neither fails nor has to wait
  · cases ht.symm.trans hfound
  · cases ht.symm.trans hfound

omit hfits in
/-- An acquisition breaks off just when it throws something away and its budget does not fit in a word. -/
theorem overflowed_iff : (m.observe D e).1 = .overflowed ↔
    wordLimit ≤ m.world.pool.config.badBudget ∧ m.rejectedBy D e ≠ [] := by
  cases hclosed : m.world.pool.closed with
  | true =>
    obtain ⟨hout, hrejected⟩ := observe_of_shut (D := D) hpass hclosed
    rw [hout, hrejected]
    exact ⟨nofun, fun h => absurd rfl h.2⟩
  | false =>
    obtain ⟨hout, hrejected, -⟩ := observe_of_open (D := D) hpass hclosed
    have hconfig : m₀.world.pool.config = m.world.pool.config := by
      rw [eq_of_pass? hpass]
      rfl
    rw [hout, hrejected, PassEnd.outcome_eq_overflowed, World.overflowed_iff, hconfig, Nat.not_lt]

/-- An acquisition that has nothing to wait for is one of a pool that may have no connection out. -/
theorem maxActive_of_internal {detail : String}
    (hinternal : (m.observe D e).1 = .refused (.internal detail)) :
    m.world.pool.config.maxActive = 0 := by
  cases hclosed : m.world.pool.closed with
  | true =>
    rw [(observe_of_shut hpass hclosed).1] at hinternal
    split at hinternal <;> cases hinternal
  | false =>
    rw [(observe_of_open (D := D) hpass hclosed).1, PassEnd.outcome_eq_refused] at hinternal
    have hz := World.maxActive_of_internal (D.observed .pool) (fits_of_pass? hfits hpass) hinternal
    rw [eq_of_pass? hpass] at hz
    exact hz

end Passes

/-- **A pass is all or nothing**, in every run and whatever the drivers answer. -/
theorem all_or_nothing (D : Drivers σ) (source : Source) (config : PoolConfig) (s : σ)
    (es : List (Event σ)) {e : Event σ} {m₀ : Machine (Observed σ)} {key : Key} {a : Acquisition}
    (hpass : (reached D source config s es).pass? e = some (m₀, key, a)) :
    AllOrNothing D (reached D source config s es) e key a := by
  have howned := owned_reached D source config s es
  have hkeyed := keyed_reached D source config s es
  have hheld := held_reached D source config s es
  have hfits := fits_reached D source config s es
  have horder := inOrder_reached D source config s es
  have hwaited := allWaited_reached D source config s es
  have hadds := observe_adds D howned hkeyed hheld hwaited e
  generalize reached D source config s es = m at hpass howned hkeyed hheld hfits horder hwaited hadds ⊢
  constructor
  case saturated => exact saturated_of_waiting hfits hpass horder
  case nothing => exact fun hwaiting => (observe_of_waiting hfits hpass hwaiting).2
  case waited => exact waited_iff hwaited hpass
  case obtained =>
    intro hopen
    obtain ⟨hout, hrejected, hsearch⟩ := observe_of_open (D := D) hpass hopen
    rw [← hsearch, hrejected, hout]
    simp only [PassEnd.outcome_eq_acquired]
    exact World.obtains_iff ..
  case decided => exact decided_of_obtains hfits hpass
  case breaksOff => exact overflowed_iff hpass
  case reclaims =>
    rcases reclaimedBy_cases howned hkeyed hheld hfits hpass with h | ⟨c, h, -⟩
    · rw [h]
      exact Nat.zero_le 1
    · rw [h]
      exact Nat.le_refl 1
  case claimed =>
    rw [hadds.counters]
    rfl
  case internal => exact fun detail => maxActive_of_internal hfits hpass

/-- One has acquired the only connection there may be, and another has to wait. -/
theorem all_or_nothing_parks :
    ((reached Bank.drivers target single [.scripted {}] [.acquire 0 none]).observe Bank.drivers
      (.acquire 1 none)).1 = .waiting ∧
    ∃ a, AllOrNothing Bank.drivers (reached Bank.drivers target single [.scripted {}]
      [.acquire 0 none]) (.acquire 1 none) 1 a := by
  have hadmits : (reached Bank.drivers target single [.scripted {}] [.acquire 0 none]).admits
      (.acquire 1 none) = true := by
    decide +kernel
  exact ⟨by decide +kernel, _, all_or_nothing Bank.drivers target single [.scripted {}]
    [.acquire 0 none] (pass?_acquire hadmits)⟩

/-- No limit on what is kept. -/
def unlimited : PoolConfig :=
  { maxActive := 1
    maxIdle := wordLimit - 1 }

/-- A driver that fails to say of the first `n` connections that they are open. -/
def shaky (n : Nat) : Bank :=
  [.scripted { rules := [{ call := "is_closed", times := some n }] }]

/-- Where no limit was meant to be an acquisition breaks off, and ends with neither a handle nor an error,
    although it has found a connection. -/
theorem breaks_off_undecided :
    ¬ ((reached Bank.drivers target unlimited (shaky 1) []).world.Obtains (Bank.drivers.observed .pool)
        target.config.credentials →
      (∃ h, ((reached Bank.drivers target unlimited (shaky 1) []).observe Bank.drivers
        (.acquire 0 none)).1 = .acquired h) ∨
      (∃ err, ((reached Bank.drivers target unlimited (shaky 1) []).observe Bank.drivers
        (.acquire 0 none)).1 = .refused (.connection err)) ∨
      ∃ n, ((reached Bank.drivers target unlimited (shaky 1) []).observe Bank.drivers
        (.acquire 0 none)).1 = .refused (.exhausted n)) := by
  have hout : ((reached Bank.drivers target unlimited (shaky 1) []).observe Bank.drivers
      (.acquire 0 none)).1 = .overflowed := by
    decide +kernel
  have hfound := (World.obtains_iff (Bank.drivers.observed .pool) target.config.credentials .zero
    unlimited.badBudget 0 (reached Bank.drivers target unlimited (shaky 1) []).world).2
    (Or.inl (by decide +kernel))
  intro h
  rw [hout] at h
  rcases h hfound with ⟨hd, e⟩ | ⟨err, e⟩ | ⟨n, e⟩ <;> cases e

end Machine

end ConnPool
