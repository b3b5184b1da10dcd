/-
  What one event adds to the statistics.

  What an event counts is said by what can be seen of it: what it hands out, what leaves the active list
  in it and why, which acquisition begins to wait or goes on in it, and when.  The candidates that passes
  throw away are the only thing that leaves no trace; they are gone through once more (`World.rejects`).

  One event does three things at once (`Adds`, `observe_adds`): what was out before or is handed out is
  out afterwards or has left, for one reason; the counters grow by what the event did; and nothing else
  happens to them.  An event that makes a pass reclaims from the front of the active list and hands out
  at its end (`Passed`); a return counts what comes back (`adds_of_release`); and a change of the
  configuration or the end of a shutdown closes what is out and counts nothing (`adds_of_uncounted`).
-/
import ConnPool.Proofs.Keys
import ConnPool.Proofs.Tally

namespace ConnPool

variable {σ τ : Type}

/-- Whether a shutdown is over. -/
def Outcome.endsShutdown : Outcome → Bool
  | .shutDown _ => true
  | _ => false

namespace Machine

/-! ## What can be seen of an event -/

/-- What the pass of an acquisition throws away. -/
def rejectsOf (D : Drivers τ) (m : Machine τ) (a : Acquisition) : List Wrapper :=
  if m.world.pool.closed then []
  else m.world.rejects D a.who (m.world.pool.config.badBudget - a.rejected)

section Seen

variable (D : Drivers σ) (m : Machine (Observed σ)) (e : Event σ)

/-- What the event hands out. -/
def handsOutBy : List Handle :=
  (m.observe D e).1.handle?.toList

/-- What the acquisition of the event reclaims: it was out and is not any more. -/
def reclaimedBy : List Wrapper :=
  match m.pass? e with
  | some _ => m.world.pool.active.filter (· ∉ (m.observe D e).2.world.pool.active)
  | none => []

/-- What is returned while it is out. -/
def returnedBy : Event σ → List Wrapper
  | .release key =>
    match m.handle? key with
    | some h => m.world.pool.active.filter (·.id = h.id)
    | none => []
  | _ => []

/-- The handles that are returned when their connections are not out any more. -/
def straysBy : Event σ → List Handle
  | .release key =>
    match m.handle? key with
    | some h => if ∃ c ∈ m.world.pool.active, c.id = h.id then [] else [h]
    | none => []
  | _ => []

/-- What a change of the configuration or the end of a shutdown closes while it is out. -/
def forceClosedBy : List Wrapper :=
  match e with
  | .reconfigure _ => if m.held then m.world.pool.active else []
  | .shutDown _ | .look _ => if (m.observe D e).1.endsShutdown then m.world.pool.active else []
  | _ => []

/-- Whether the connection of a wrapper is found fit when it is returned. -/
def isFitNow (c : Wrapper) : Bool :=
  (m.world.isFit (D.observed .pool) c).1

/-- What is returned while it is out and is not fit. -/
def unfitBy : List Wrapper :=
  (m.returnedBy e).filter fun c => !m.isFitNow D c

/-- How long those connections were out that are returned in good health. -/
def checkoutAgesBy : List Duration :=
  agesOf m.world.now ((m.returnedBy e).filter (m.isFitNow D))

/-- How long those connections were out that are reclaimed. -/
def overdueAgesBy : List Duration :=
  agesOf m.world.now (m.reclaimedBy D e)

/-- The acquisition that begins with the event and has to wait. -/
def parksBy : List Key :=
  match e, (m.observe D e).1 with
  | .acquire key _, .waiting => [key]
  | _, _ => []

/-- The candidates that the acquisition of the event throws away. -/
def rejectedBy : List Wrapper :=
  match m.pass? e with
  | some (m₀, _, a) => m₀.rejectsOf (D.observed .pool) a
  | none => []

/-- The slice of a wait that is over. -/
def slicesBy : Event σ → List Duration
  | .resume key =>
    match m.waiter? key with
    | some p => if p.due m.world.now then [m.world.now - p.since] else []
    | none => []
  | _ => []

/-- How long the acquisition took that the event hands something to. -/
def requestTimesBy : List Duration :=
  match m.pass? e, (m.observe D e).1 with
  | some (_, _, a), .acquired _ => [m.world.now - a.startedAt]
  | _, _ => []

/-- What the event adds to the counters. -/
def tallyBy : Counters where
  requests := (m.handsOutBy D e).length
  requestTime := .total (m.requestTimesBy D e)
  checkoutTime := .total (m.overdueAgesBy D e) + .total (m.checkoutAgesBy D e)
  claimedOverdue := (m.reclaimedBy D e).length
  overdueCheckoutTime := .total (m.overdueAgesBy D e)
  waitTime := .total (m.slicesBy e)
  hadToWait := (m.parksBy D e).length
  badConnections := (m.rejectedBy D e).length + (m.unfitBy D e).length + (m.straysBy e).length

/-- What an event does to those who hold connections, and to the counters. -/
structure Adds : Prop where
  /-- Whoever held a connection, or is handed one, holds it afterwards or has lost it for one reason. -/
  fates : (m.world.pool.active.map (·.handle) ++ m.handsOutBy D e).Perm
    ((m.observe D e).2.world.pool.active.map (·.handle) ++
      (m.returnedBy e ++ m.reclaimedBy D e ++ m.forceClosedBy D e).map (·.handle))
  counters : (m.observe D e).2.world.pool.counters = m.world.pool.counters + m.tallyBy D e

end Seen

/-! ## A pass -/

/-- What is counted when an acquisition ends its pass in this way. -/
def tallyOfOutcome (now : Instant) (a : Acquisition) : Outcome → Counters
  | .acquired _ => { requests := 1, requestTime := now - a.startedAt }
  | .waiting => { hadToWait := if a.waited then 0 else 1 }
  | _ => {}

/-- What a pass of a machine did to the active list and to the counters: it took what was overdue from
    the front and put what it handed out at the end. -/
structure PassTallied (m : Machine τ) (a : Acquisition) (bad : List Wrapper) (o : Outcome)
    (m' : Machine τ) (taken rest : List Wrapper) : Prop where
  before : m.world.pool.active = taken ++ rest
  overdue : ∀ d ∈ taken, m.world.pool.config.maxCheckoutTime < m.world.now - d.checkoutAt
  acquired : ∀ h, o = .acquired h → ∃ c, m'.world.pool.active = rest ++ [c] ∧ c.handle = h ∧
    c.checkoutAt = m.world.now
  otherwise : (∀ h, o ≠ .acquired h) → m'.world.pool.active = rest
  counters : m'.world.pool.counters = m.world.pool.counters +
    (tallyOfReclaims m.world.now taken + tallyOfBad bad.length + tallyOfOutcome m.world.now a o)

/-- A pass that is refused at once counts nothing. -/
theorem PassTallied.of_refused (m : Machine τ) (a : Acquisition) (err : PoolError) :
    m.PassTallied a [] (.refused err) m [] m.world.pool.active :=
  ⟨rfl, by simp, by simp, fun _ => rfl, rfl⟩

section Search

variable {m : Machine τ} {a : Acquisition} {bad : List Wrapper} {w : World τ}
  {taken rest : List Wrapper}

theorem PassTallied.of_handedOut {hd : Handle}
    (h : m.world.Tallied a.startedAt bad (.handedOut hd) w taken rest)
    (handles : List (Key × Handle)) :
    m.PassTallied a bad (.acquired hd) { m with world := w, handles } taken rest where
  before := h.before
  overdue := h.overdue
  acquired h' he := h.handedOut h' (congrArg PassEnd.handedOut (Outcome.acquired.inj he))
  otherwise hnot := absurd rfl (hnot hd)
  counters := h.counters

/-- An acquisition that comes to nothing counts what its pass has counted before the end. -/
theorem PassTallied.of_nothing {r : PassEnd} {o : Outcome}
    (h : m.world.Tallied a.startedAt bad r w taken rest) (hr : ∀ h, r ≠ .handedOut h)
    (ho : ∀ h, o ≠ .acquired h)
    (hcounts : tallyOfEnd m.world.now a.startedAt r = tallyOfOutcome m.world.now a o) :
    m.PassTallied a bad o { m with world := w } taken rest :=
  ⟨h.before, h.overdue, fun hd he => absurd he (ho hd), fun _ => h.otherwise hr, hcounts ▸ h.counters⟩

/-- An acquisition that has to wait is counted if it did not wait before. -/
theorem PassTallied.of_mustWait {r : Nat}
    (h : m.world.Tallied a.startedAt bad (.mustWait r) w taken rest)
    (waiters : List (Key × Waiter)) : m.PassTallied a bad .waiting { m with
      world := if a.waited then w
        else w.onPool (·.count fun k => { k with hadToWait := k.hadToWait + 1 })
      waiters } taken rest := by
  refine ⟨h.before, h.overdue, by simp, fun _ => ?_, ?_⟩
  · rw [← h.otherwise (by simp)]
    by_cases hwaited : a.waited = true
    · rw [if_pos hwaited]
    · rw [if_neg hwaited]
      rfl
  · by_cases hwaited : a.waited = true
    · simp only [if_pos hwaited, h.counters, tallyOfOutcome, tallyOfEnd]
    · have hone : (w.pool.count fun k => { k with hadToWait := k.hadToWait + 1 }).counters =
          w.pool.counters + { hadToWait := 1 } := rfl
      simp only [if_neg hwaited, World.onPool_pool, hone, h.counters, tallyOfOutcome, tallyOfEnd,
        Counters.add_assoc]
      rfl

end Search

/-- **What a pass of a machine counts**, and what it does to the active list. -/
theorem pass_tally (D : Drivers τ) (m : Machine τ) (key : Key) (a : Acquisition) :
    ∃ taken rest, m.PassTallied a (m.rejectsOf D a) (m.pass D key a).1 (m.pass D key a).2
      taken rest := by
  by_cases hc : m.world.pool.closed = true
  · refine ⟨[], m.world.pool.active, ?_⟩
    simp only [rejectsOf, pass, hc, if_true]
    exact .of_refused m a _
  · obtain ⟨taken, rest, h⟩ := World.tryOut_tally D a.who a.startedAt
      (m.world.pool.config.badBudget - a.rejected) a.rejected m.world
    refine ⟨taken, rest, ?_⟩
    rcases ht : m.world.tryOut D a.who a.startedAt (m.world.pool.config.badBudget - a.rejected)
      a.rejected with ⟨r, w⟩
    rw [ht] at h
    cases r with
    | handedOut hd =>
      simp only [rejectsOf, pass, if_neg hc, ht]
      exact .of_handedOut h _
    | failed err =>
      simp only [rejectsOf, pass, if_neg hc, ht]
      exact .of_nothing h (by simp) (by simp) rfl
    | overflowed =>
      simp only [rejectsOf, pass, if_neg hc, ht]
      exact .of_nothing h (by simp) (by simp) rfl
    | mustWait r =>
      simp only [rejectsOf, pass, if_neg hc, ht]
      exact .of_mustWait h _

/-! ## One event -/

theorem settle_counters (P : Drivers τ) (m : Machine τ) :
    (m.settle P).world.pool.counters = m.world.pool.counters := by
  rcases m.settle_cases P with e | ⟨-, e⟩
  · rw [e]
  · rw [e]
    show (World.invalidateAll P m.world).pool.counters = _
    rw [World.invalidateAll_pool]

section Step

variable {D : Drivers σ} {os : List Outcome} {m : Machine (Observed σ)} {e : Event σ}

/-- What an event does to the lists and the counters it does before the pool is closed in case nobody
    refers to it any more. -/
theorem observe_react (howned : Owned os m) (hkeyed : m.Keyed) (hheld : m.Held)
    (hadmits : m.admits e.observed = true) {x : Outcome × Machine (Observed σ)}
    (hreact : m.react (e.observed.view (D.observed .pool) (D.observed .holder)) e.observed = x) :
    (m.observe D e).1 = x.1 ∧
      (m.observe D e).2.world.pool.active = x.2.world.pool.active ∧
      (m.observe D e).2.world.pool.counters = x.2.world.pool.counters := by
  have hdeed := react_deed D m e
  rw [hreact] at hdeed
  have he : m.observe D e = (x.1, x.2.settle (D.observed .pool)) := by
    simp only [observe, stepAs, hadmits, if_true, hreact]
  rw [he]
  exact ⟨rfl, settle_active _ (hdeed.held howned hkeyed hheld), settle_counters _ _⟩

/-- An event that makes no pass counts returns only. -/
theorem tallyBy_of_pass?_eq_none (h : m.pass? e = none) :
    m.handsOutBy D e = [] ∧ m.reclaimedBy D e = [] ∧ m.tallyBy D e =
      { checkoutTime := .total (m.checkoutAgesBy D e)
        badConnections := (m.unfitBy D e).length + (m.straysBy e).length } := by
  have hout : m.handsOutBy D e = [] := by
    have hnone : (m.observe D e).1.handle? = none := handle?_eq_none fun hd hacquired => by
      obtain ⟨x, hx⟩ := pass?_of_acquired D hacquired
      cases h.symm.trans hx
    rw [handsOutBy, hnone]
    rfl
  have hreclaimed : m.reclaimedBy D e = [] := by
    simp only [reclaimedBy, h]
  have hrejected : m.rejectedBy D e = [] := by
    simp only [rejectedBy, h]
  have htimes : m.requestTimesBy D e = [] := by
    simp only [requestTimesBy, h]
  have hslices : m.slicesBy e = [] := by
    cases e with
    | resume key =>
      cases hk : m.waiter? key with
      | none => simp only [slicesBy, hk]
      | some p =>
        have hnot : ¬ p.due m.world.now = true := fun hd => by simp [pass?, hk, hd] at h
        simp only [slicesBy, hk, if_neg hnot]
    | _ => rfl
  have hparks : m.parksBy D e = [] := by
    cases e with
    | acquire key who =>
      have hnot : ¬ m.admits (Event.acquire key who : Event σ).observed = true := fun hadmits => by
        cases h.symm.trans (pass?_acquire hadmits)
      have he : (m.observe D (.acquire key who)).1 = .nothing := by
        simp only [observe, stepAs, if_neg hnot]
      simp only [parksBy, he]
    | _ => rfl
  refine ⟨hout, hreclaimed, ?_⟩
  have hages : m.overdueAgesBy D e = [] := congrArg (agesOf m.world.now) hreclaimed
  simp only [tallyBy, hout, hreclaimed, hrejected, htimes, hslices, hparks, hages, List.length_nil,
    Nat.zero_add, Duration.total_nil, Duration.zero_add]

/-- What is out is left alone or closed, and nothing is counted. -/
theorem adds_of_uncounted (h : m.pass? e = none) (hreturned : m.returnedBy e = [])
    (hstrays : m.straysBy e = [])
    (hcounters : (m.observe D e).2.world.pool.counters = m.world.pool.counters)
    (hactive : (m.observe D e).2.world.pool.active ++ m.forceClosedBy D e = m.world.pool.active) :
    m.Adds D e := by
  obtain ⟨hout, hreclaimed, htally⟩ := tallyBy_of_pass?_eq_none (D := D) h
  constructor
  case fates =>
    rw [hout, hreclaimed, hreturned, List.append_nil, List.append_nil, List.nil_append,
      ← List.map_append, hactive]
  case counters =>
    rw [hcounters, htally, unfitBy, checkoutAgesBy, hreturned, hstrays]
    rfl

/-- What leaves a list without repetitions from the front is what is not in it any more. -/
theorem filter_not_mem_eq {l taken rest new : List Wrapper} (hnodup : l.Nodup)
    (hl : l = taken ++ rest) (hnew : ∀ c ∈ new, c ∉ l) :
    l.filter (· ∉ rest ++ new) = taken := by
  subst hl
  rw [List.filter_append]
  have htaken : taken.filter (· ∉ rest ++ new) = taken := by
    refine List.filter_eq_self.2 fun c hc => ?_
    have hrest : c ∉ rest := fun h => (List.nodup_append.1 hnodup).2.2 c hc c h rfl
    have hnot : c ∉ new := fun h => hnew c h (List.mem_append_left _ hc)
    simp [hrest, hnot]
  have hrest : rest.filter (· ∉ rest ++ new) = [] := by
    refine List.filter_eq_nil_iff.2 fun c hc => ?_
    simp [hc]
  rw [htaken, hrest, List.append_nil]

theorem active_nodup (howned : Owned os m) : m.world.pool.active.Nodup :=
  howned.roster.active_nodup

/-- What is handed out was not out before. -/
theorem not_mem_active_of_acquired (howned : Owned os m) {h : Handle}
    (hout : (m.observe D e).1 = .acquired h) {c : Wrapper} (hc : c.handle = h) :
    c ∉ m.world.pool.active := by
  intro hmem
  have hold : c.handle ∈ handedOut os := howned.active c hmem
  have honce := (stepAs_owned (D.observed .pool) (D.observed .holder) e.observed howned).once
  have ho : (m.stepAs (D.observed .pool) (D.observed .holder) e.observed).1 = .acquired h := hout
  rw [ho, handedOut_append_acquired, List.map_append, List.map_singleton] at honce
  exact (List.nodup_append.1 honce).2.2 _ (List.mem_map_of_mem hold) _ List.mem_cons_self
    (congrArg Handle.id hc)

/-- The machine of a pass has the lists of before; the slice of a wait that is over is counted. -/
theorem pass?_world {m₀ : Machine (Observed σ)} {key : Key} {a : Acquisition}
    (hpass : m.pass? e = some (m₀, key, a)) :
    m₀.world.pool.active = m.world.pool.active ∧ m₀.world.pool.config = m.world.pool.config ∧
      m₀.world.now = m.world.now ∧
      m₀.world.pool.counters = m.world.pool.counters + { waitTime := .total (m.slicesBy e) } := by
  rcases pass?_cases hpass with ⟨who, rfl, -, rfl, -⟩ | ⟨rfl, p, hk, hd, rfl, -⟩
  · exact ⟨rfl, rfl, rfl, rfl⟩
  · refine ⟨rfl, rfl, rfl, ?_⟩
    simp only [slicesBy, hk, if_pos hd, Duration.total_singleton]
    rfl

/-- What a pass counts of its acquisition is seen by what the acquisition comes to. -/
theorem tallyOfOutcome_eq (hwaited : m.AllWaited) {m₀ : Machine (Observed σ)} {key : Key}
    {a : Acquisition} (hpass : m.pass? e = some (m₀, key, a)) :
    tallyOfOutcome m.world.now a (m.observe D e).1 =
      { requests := (m.handsOutBy D e).length
        requestTime := .total (m.requestTimesBy D e)
        hadToWait := (m.parksBy D e).length } := by
  simp only [handsOutBy, requestTimesBy, hpass]
  rcases ho : (m.observe D e).1 with _ | h | _ | err | answer | n | _
  case waiting =>
    rcases pass?_cases hpass with ⟨who, rfl, -, -, rfl⟩ | ⟨rfl, p, hk, -, -, rfl⟩
    · simp only [parksBy, ho]
      rfl
    · -- whoever goes on was counted when it began to wait
      have hold : p.acquisition.waited = true := hwaited key p (mem_of_lookup hk)
      simp only [parksBy, tallyOfOutcome, hold]
      rfl
  all_goals
    have hparks : m.parksBy D e = [] := by
      cases e <;> simp only [parksBy, ho]
    rw [hparks]
  case acquired => simp only [Duration.total_singleton]; rfl
  all_goals rfl

/-- What is seen of an event that makes a pass for `a`: `rest` stays out, and `new` joins it. -/
structure Passed (D : Drivers σ) (m : Machine (Observed σ)) (e : Event σ) (a : Acquisition)
    (rest new : List Wrapper) : Prop where
  before : m.world.pool.active = m.reclaimedBy D e ++ rest
  after : (m.observe D e).2.world.pool.active = rest ++ new
  overdue : ∀ c ∈ m.reclaimedBy D e,
    m.world.pool.config.maxCheckoutTime < m.world.now - c.checkoutAt
  handsOut : m.handsOutBy D e = new.map (·.handle)
  stamped : ∀ c ∈ new, c.checkoutAt = m.world.now
  counters : (m.observe D e).2.world.pool.counters = m.world.pool.counters +
    ({ waitTime := .total (m.slicesBy e) } + (tallyOfReclaims m.world.now (m.reclaimedBy D e) +
      tallyOfBad (m.rejectedBy D e).length + tallyOfOutcome m.world.now a (m.observe D e).1))

/-- What is reclaimed in a pass is what the pass takes off the active list. -/
theorem passed_of_pass? (howned : Owned os m) (hkeyed : m.Keyed) (hheld : m.Held)
    {m₀ : Machine (Observed σ)} {key : Key} {a : Acquisition}
    (hpass : m.pass? e = some (m₀, key, a)) : ∃ rest new, m.Passed D e a rest new := by
  obtain ⟨hlists, hconfig, hnow, hbefore⟩ := pass?_world hpass
  obtain ⟨taken, rest, htaken, hoverdue, hacquired, hother, hcounters⟩ :=
    pass_tally (D.observed .pool) m₀ key a
  obtain ⟨hout, hactive, hcount⟩ := observe_react (D := D) howned hkeyed hheld (admits_of_pass? hpass)
    (react_observed_of_pass? D hpass)
  rw [← hout, ← hactive, hnow] at hacquired
  rw [← hout, ← hactive] at hother
  rw [← hout, ← hcount, hbefore, hnow, Counters.add_assoc] at hcounters
  rw [hlists] at htaken
  rw [hconfig, hnow] at hoverdue
  obtain ⟨new, hafter, hnew, hhandles, hstamped⟩ : ∃ new,
      (m.observe D e).2.world.pool.active = rest ++ new ∧ (∀ c ∈ new, c ∉ m.world.pool.active) ∧
        m.handsOutBy D e = new.map (·.handle) ∧ ∀ c ∈ new, c.checkoutAt = m.world.now := by
    by_cases h : ∃ hd, (m.observe D e).1 = .acquired hd
    · obtain ⟨hd, ho⟩ := h
      obtain ⟨c, hc, hch, hstamp⟩ := hacquired hd ho
      refine ⟨[c], hc, fun d hd' => ?_, ?_, fun d hd' => ?_⟩
      · rw [List.mem_singleton.1 hd']
        exact not_mem_active_of_acquired howned ho hch
      · rw [handsOutBy, ho, List.map_singleton, hch]
        rfl
      · rw [List.mem_singleton.1 hd']
        exact hstamp
    · have hnone : ∀ hd, (m.observe D e).1 ≠ .acquired hd := fun hd ho => h ⟨hd, ho⟩
      refine ⟨[], (hother hnone).trans (List.append_nil _).symm, nofun, ?_, nofun⟩
      rw [handsOutBy, handle?_eq_none hnone]
      rfl
  have hreclaimed : m.reclaimedBy D e = taken := by
    simp only [reclaimedBy, hpass, hafter]
    exact filter_not_mem_eq (active_nodup howned) htaken hnew
  have hrejected : m.rejectedBy D e = m₀.rejectsOf (D.observed .pool) a := by
    simp only [rejectedBy, hpass]
  refine ⟨rest, new, ?_, hafter, ?_, hhandles, hstamped, ?_⟩
  · rw [hreclaimed, htaken]
  · rw [hreclaimed]
    exact hoverdue
  · rw [hreclaimed, hrejected, hcounters]

/-- **An event that makes a pass** adds what the pass adds. -/
theorem adds_of_pass (howned : Owned os m) (hkeyed : m.Keyed) (hheld : m.Held)
    (hwaited : m.AllWaited) {m₀ : Machine (Observed σ)} {key : Key} {a : Acquisition}
    (hpass : m.pass? e = some (m₀, key, a)) : m.Adds D e := by
  obtain ⟨rest, new, h⟩ := passed_of_pass? (D := D) howned hkeyed hheld hpass
  have hothers : m.returnedBy e = [] ∧ m.straysBy e = [] ∧ m.forceClosedBy D e = [] := by
    rcases pass?_cases hpass with ⟨who, rfl, -⟩ | ⟨rfl, -⟩ <;> exact ⟨rfl, rfl, rfl⟩
  obtain ⟨hreturned, hstrays, hforced⟩ := hothers
  constructor
  case fates =>
    rw [h.after, h.handsOut, hreturned, hforced, List.append_nil, List.nil_append,
      ← List.map_append, ← List.map_append]
    conv => lhs; rw [h.before, List.append_assoc]
    exact List.perm_append_comm.map _
  case counters =>
    rw [h.counters, tallyOfOutcome_eq hwaited hpass]
    congr 1
    simp only [tallyBy, unfitBy, checkoutAgesBy, overdueAgesBy, hreturned, hstrays,
      Counters.add_def, tallyOfReclaims, tallyOfBad, List.filter_nil, agesOf, List.map_nil,
      List.length_nil, Duration.total_nil, Nat.zero_add, Nat.add_zero, Duration.zero_add,
      Duration.add_zero]

/-- In a list with one wrapper of each identity, at most one has the identity. -/
theorem filter_id_eq {front back : List Wrapper} {c : Wrapper}
    (hids : ((front ++ c :: back).map (·.id)).Nodup) :
    (front ++ c :: back).filter (·.id = c.id) = [c] := by
  rw [List.map_append, List.map_cons, List.nodup_middle, List.nodup_cons, ← List.map_append] at hids
  have hnone : ∀ d ∈ front ++ back, ¬ d.id = c.id := fun d hd he =>
    hids.1 (he ▸ List.mem_map_of_mem hd)
  have hfront : front.filter (·.id = c.id) = [] :=
    List.filter_eq_nil_iff.2 fun d hd => by simpa using hnone d (List.mem_append_left _ hd)
  have hback : back.filter (·.id = c.id) = [] :=
    List.filter_eq_nil_iff.2 fun d hd => by simpa using hnone d (List.mem_append_right _ hd)
  rw [List.filter_append, List.filter_cons_of_pos (by simp), hfront, hback, List.nil_append]

/-- What a return counts is seen by what is returned. -/
theorem tallyOfReturn_eq (D : Drivers σ) (m : Machine (Observed σ)) (c : Wrapper) :
    World.tallyOfReturn m.world.now (m.world.isFit (D.observed .pool) c).1 c =
      { checkoutTime := .total (agesOf m.world.now ([c].filter (m.isFitNow D)))
        badConnections := ([c].filter fun c => !m.isFitNow D c).length } := by
  cases hfit : m.isFitNow D c with
  | true =>
    have hf : (m.world.isFit (D.observed .pool) c).1 = true := hfit
    simp only [hf, hfit, World.tallyOfReturn, if_true, List.filter_cons, List.filter_nil, agesOf,
      List.map_cons, List.map_nil, Duration.total_singleton, Bool.not_true, Bool.false_eq_true,
      if_false, List.length_nil]
  | false =>
    have hf : (m.world.isFit (D.observed .pool) c).1 = false := hfit
    simp only [hf, hfit, World.tallyOfReturn, tallyOfBad, if_true, List.filter_cons, List.filter_nil,
      agesOf, List.map_nil, Duration.total_nil, Bool.not_false, Bool.false_eq_true, if_false,
      List.length_singleton]

/-- **A return** adds what it counts. -/
theorem adds_of_release (howned : Owned os m) (hkeyed : m.Keyed) (hheld : m.Held) (key : Key) :
    m.Adds D (.release key) := by
  obtain ⟨-, hactive, hcounters⟩ := observe_react (D := D) (e := .release key) howned hkeyed hheld rfl
    rfl
  replace hactive : (m.observe D (.release key)).2.world.pool.active =
    (m.release (D.observed .pool) key).world.pool.active := hactive
  replace hcounters : (m.observe D (.release key)).2.world.pool.counters =
    (m.release (D.observed .pool) key).world.pool.counters := hcounters
  have hnone : m.pass? (.release key : Event σ) = none := rfl
  obtain ⟨hout, hreclaimed, htally⟩ := tallyBy_of_pass?_eq_none (D := D) hnone
  have hforced : m.forceClosedBy D (.release key) = [] := rfl
  rcases m.release_cases (D.observed .pool) key with ⟨hk, e⟩ | ⟨h, hk, e⟩
  · rw [e] at hactive hcounters
    refine adds_of_uncounted hnone ?_ ?_ hcounters ?_
    · simp only [returnedBy, hk]
    · simp only [straysBy, hk]
    · rw [hforced, List.append_nil, hactive]
  · rw [e] at hactive hcounters
    replace hactive : (m.observe D (.release key)).2.world.pool.active =
      (m.world.checkIn (D.observed .pool) h.id).pool.active := hactive
    replace hcounters : (m.observe D (.release key)).2.world.pool.counters =
      (m.world.checkIn (D.observed .pool) h.id).pool.counters := hcounters
    rcases World.checkIn_tally (D.observed .pool) m.world h.id with ⟨hstray, ha, hc⟩ |
      ⟨c, front, back, hout', hid, ha, hc⟩
    · -- the handle has lost its connection
      have hreturned : m.returnedBy (.release key : Event σ) = [] := by
        simp only [returnedBy, hk]
        exact List.filter_eq_nil_iff.2 fun d hd => by simpa using hstray d hd
      have hstrays : m.straysBy (.release key : Event σ) = [h] := by
        have hnot : ¬ ∃ c ∈ m.world.pool.active, c.id = h.id := fun ⟨c, hmem, hid⟩ =>
          hstray c hmem hid
        simp only [straysBy, hk, if_neg hnot]
      constructor
      case fates =>
        rw [hactive, ha, hout, hreturned, hreclaimed, hforced]
        exact List.Perm.refl _
      case counters =>
        rw [hcounters, hc, htally, unfitBy, checkoutAgesBy, hreturned, hstrays]
        rfl
    · have hids : (m.world.pool.active.map (·.id)).Nodup := by
        have hall := howned.roster.ids
        rw [Pool.wrappers, List.map_append] at hall
        exact (List.nodup_append.1 hall).1
      have hreturned : m.returnedBy (.release key : Event σ) = [c] := by
        simp only [returnedBy, hk]
        rw [hout', ← hid]
        exact filter_id_eq (hout' ▸ hids)
      have hstrays : m.straysBy (.release key : Event σ) = [] := by
        have hsome : ∃ c ∈ m.world.pool.active, c.id = h.id :=
          ⟨c, hout' ▸ List.mem_append_right _ List.mem_cons_self, hid⟩
        simp only [straysBy, hk, if_pos hsome]
      constructor
      case fates =>
        rw [hactive, ha, hout', hout, hreturned, hreclaimed, hforced, List.append_nil,
          List.append_nil, List.append_nil, ← List.map_append]
        refine List.Perm.map _ (List.perm_middle.trans ?_)
        exact (List.perm_append_singleton c _).symm
      case counters =>
        rw [hcounters, hc, htally, unfitBy, checkoutAgesBy, hreturned, hstrays, tallyOfReturn_eq]
        rfl

theorem reconfigure_lists (P : Drivers τ) (w : World τ) (change : Change) :
    (w.reconfigure P change).pool.active = [] ∧
      (w.reconfigure P change).pool.counters = w.pool.counters := by
  show (World.invalidateAll P _).pool.active = [] ∧ (World.invalidateAll P _).pool.counters = _
  rw [World.invalidateAll_pool, World.onPool_pool, Pool.apply_eq]
  exact ⟨rfl, rfl⟩

/-- What a look comes to: it closes what is out and the shutdown is over, or it leaves it alone. -/
structure Looked (m : Machine τ) (x : Outcome × Machine τ) : Prop where
  counters : x.2.world.pool.counters = m.world.pool.counters
  active : x.2.world.pool.active = if x.1.endsShutdown then [] else m.world.pool.active

theorem lookAt_looked (P : Drivers τ) {m m₀ : Machine τ} (key : Key) (deadline : Instant)
    (hactive : m₀.world.pool.active = m.world.pool.active)
    (hcounters : m₀.world.pool.counters = m.world.pool.counters) :
    m.Looked (m₀.lookAt P key deadline) := by
  rcases m₀.lookAt_cases P key deadline with ⟨out, e⟩ | ⟨drain, e⟩
  · rw [e]
    have hpool := World.invalidateAll_pool m₀.world P
    exact ⟨(congrArg Pool.counters hpool).trans hcounters, congrArg Pool.active hpool⟩
  · rw [e]
    exact ⟨hcounters, hactive⟩

theorem look_looked (P : Drivers τ) (m : Machine τ) (key : Key) : m.Looked (m.look P key) := by
  cases hk : m.drain? key with
  | none =>
    have e : m.look P key = (.nothing, m) := by simp only [look, hk]
    rw [e]
    exact ⟨rfl, rfl⟩
  | some d =>
    by_cases hd : d.nextLook ≤ m.world.now
    · have e : m.look P key = ({ m with drains := without key m.drains }).lookAt P key d.deadline := by
        simp only [look, hk, if_pos hd]
      rw [e]
      exact lookAt_looked P key d.deadline rfl rfl
    · have e : m.look P key = (.draining, m) := by simp only [look, hk, if_neg hd]
      rw [e]
      exact ⟨rfl, rfl⟩

/-- A look adds nothing, and closes what it closes. -/
theorem adds_of_looked (hpass : m.pass? e = none) (hreturned : m.returnedBy e = [])
    (hstrays : m.straysBy e = []) {x : Outcome × Machine (Observed σ)}
    (hevent : (m.observe D e).1 = x.1 ∧ (m.observe D e).2.world.pool.active = x.2.world.pool.active ∧
      (m.observe D e).2.world.pool.counters = x.2.world.pool.counters)
    (hlooked : m.Looked x) (hforced : m.forceClosedBy D e =
      if (m.observe D e).1.endsShutdown then m.world.pool.active else []) : m.Adds D e := by
  obtain ⟨hout, hactive, hcounters⟩ := hevent
  refine adds_of_uncounted hpass hreturned hstrays (hcounters.trans hlooked.counters) ?_
  rw [hforced, hactive, hlooked.active, hout]
  cases x.1.endsShutdown with
  | true => exact List.nil_append _
  | false => exact List.append_nil _

/-- What cannot happen adds nothing. -/
theorem adds_of_refused (hpass : m.pass? e = none) (h : ¬ m.admits e.observed = true) :
    m.Adds D e := by
  have he : m.observe D e = (.nothing, m) := by
    simp only [observe, stepAs, if_neg h]
  have hforced : m.forceClosedBy D e = [] := by
    cases e with
    | reconfigure change => exact if_neg h
    | shutDown key | look key => rw [forceClosedBy, he]; rfl
    | _ => rfl
  refine adds_of_uncounted hpass ?_ ?_ (by rw [he]) (by rw [he, hforced, List.append_nil])
  · cases e with
    | release key => exact absurd rfl h
    | _ => rfl
  · cases e with
    | release key => exact absurd rfl h
    | _ => rfl

/-- **What one event adds.** -/
theorem observe_adds (D : Drivers σ) (howned : Owned os m) (hkeyed : m.Keyed) (hheld : m.Held)
    (hwaited : m.AllWaited) (e : Event σ) : m.Adds D e := by
  rcases hpass : m.pass? e with _ | ⟨m₀, key, a⟩
  case some => exact adds_of_pass howned hkeyed hheld hwaited hpass
  case none =>
    by_cases hadmits : m.admits e.observed = true
    case neg => exact adds_of_refused hpass hadmits
    case pos =>
      obtain ⟨hout, hactive, hcounters⟩ := observe_react (D := D) howned hkeyed hheld hadmits rfl
      cases e with
      | release key => exact adds_of_release howned hkeyed hheld key
      | acquire key who => cases hpass.symm.trans (pass?_acquire hadmits)
      | resume key =>
        obtain ⟨o, e, -⟩ := resume_of_pass?_eq_none (D.observed .pool) hpass
        have hreact : m.react (D.observed .pool) (.resume key) = (o, m) := e
        refine adds_of_uncounted hpass rfl rfl (hcounters.trans ?_) ?_
        · exact congrArg (·.2.world.pool.counters) hreact
        · exact (List.append_nil _).trans
            (hactive.trans (congrArg (·.2.world.pool.active) hreact))
      | use key call =>
        have hworld : (m.use (D.observed .holder) key call).2.world.pool = m.world.pool := by
          rcases m.use_cases (D.observed .holder) key call with ⟨-, e⟩ | ⟨hd, -, -, e⟩ |
            ⟨hd, o, -, -, e, -⟩
          all_goals rw [e]
          rfl
        refine adds_of_uncounted hpass rfl rfl (hcounters.trans ?_) ?_
        · exact congrArg Pool.counters hworld
        · exact (List.append_nil _).trans (hactive.trans (congrArg Pool.active hworld))
      | reconfigure change =>
        have hpool : (m.observe D (.reconfigure change)).2.world.pool.active = [] ∧
            (m.observe D (.reconfigure change)).2.world.pool.counters = m.world.pool.counters := by
          rw [hactive, hcounters]
          exact reconfigure_lists (D.observed .pool) m.world change
        have hforced : m.forceClosedBy D (.reconfigure change) = m.world.pool.active := if_pos hadmits
        exact adds_of_uncounted hpass rfl rfl hpool.2 (by rw [hpool.1, hforced, List.nil_append])
      | shutDown key =>
        have hlooked : m.Looked (m.shutDown (D.observed .pool) key) :=
          lookAt_looked (D.observed .pool) key _ rfl rfl
        exact adds_of_looked hpass rfl rfl ⟨hout, hactive, hcounters⟩ hlooked rfl
      | look key =>
        exact adds_of_looked hpass rfl rfl ⟨hout, hactive, hcounters⟩
          (look_looked (D.observed .pool) m key) rfl
      | _ =>
        exact adds_of_uncounted hpass rfl rfl hcounters ((List.append_nil _).trans hactive)

end Step

end Machine

end ConnPool
