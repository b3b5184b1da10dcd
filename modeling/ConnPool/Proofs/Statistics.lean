/-
  The statistics of a pool are an exact summary of its run.

  What single events add is known (`observe_adds`); `along` collects it over a run.  Every handle that was
  handed out has met with one `Fate` (`fates_reached`), and the counters are what the events added
  (`counters_reached`).  That the measured times are those of the run, from the beginning of an
  acquisition, of a wait or of a checkout, is said by `Measured`.
-/
import ConnPool.Pool.Stats
import ConnPool.Proofs.Increments

namespace ConnPool

variable {σ : Type}

namespace Machine

/-! ## Along a run -/

section Runs

variable {α : Type} (D : Drivers σ) (source : Source) (config : PoolConfig) (s : σ)

/-- What is seen of every event from a machine on. -/
def alongFrom (f : Machine (Observed σ) → Event σ → List α) :
    Machine (Observed σ) → List (Event σ) → List α
  | _, [] => []
  | m, e :: es => f m e ++ alongFrom f (m.observe D e).2 es

/-- What is seen of every event of a run, in order. -/
def along (f : Machine (Observed σ) → Event σ → List α) (es : List (Event σ)) : List α :=
  alongFrom D f (start (.new source config) ⟨s, []⟩) es

theorem alongFrom_concat (f : Machine (Observed σ) → Event σ → List α) (e : Event σ) :
    ∀ (es : List (Event σ)) (m : Machine (Observed σ)), alongFrom D f m (es ++ [e]) =
      alongFrom D f m es ++
        f (m.runAs (D.observed .pool) (D.observed .holder) (es.map .observed)).2 e
  | [], _ => List.append_nil _
  | e' :: es, m => by
    rw [List.cons_append, alongFrom, alongFrom_concat f e es, alongFrom, List.append_assoc,
      List.map_cons, runAs_cons]
    rfl

@[simp] theorem along_concat (f : Machine (Observed σ) → Event σ → List α) (es : List (Event σ))
    (e : Event σ) : along D source config s f (es ++ [e]) =
      along D source config s f es ++ f (reached D source config s es) e :=
  alongFrom_concat D f e es _

/-- What the events of a run add to the counters. -/
def tallyAlong (es : List (Event σ)) : Counters where
  requests := (along D source config s (handsOutBy D) es).length
  requestTime := .total (along D source config s (requestTimesBy D) es)
  checkoutTime := .total (along D source config s (overdueAgesBy D) es) +
    .total (along D source config s (checkoutAgesBy D) es)
  claimedOverdue := (along D source config s (reclaimedBy D) es).length
  overdueCheckoutTime := .total (along D source config s (overdueAgesBy D) es)
  waitTime := .total (along D source config s slicesBy es)
  hadToWait := (along D source config s (parksBy D) es).length
  badConnections := (along D source config s (rejectedBy D) es).length +
    (along D source config s (unfitBy D) es).length + (along D source config s straysBy es).length

theorem tallyAlong_concat (es : List (Event σ)) (e : Event σ) :
    tallyAlong D source config s (es ++ [e]) =
      tallyAlong D source config s es + (reached D source config s es).tallyBy D e := by
  simp only [tallyAlong, tallyBy, along_concat, List.length_append, Duration.total_append,
    Counters.add_def]
  congr 1
  · ext
    simp only [Duration.nanos_add]
    omega
  · omega

theorem adds_reached (es : List (Event σ)) (e : Event σ) : (reached D source config s es).Adds D e :=
  observe_adds D (owned_reached D source config s es) (keyed_reached D source config s es)
    (held_reached D source config s es) (allWaited_reached D source config s es) e

theorem counters_reached (es : List (Event σ)) :
    (reached D source config s es).world.pool.counters = tallyAlong D source config s es := by
  induction es using List.reverseRecOn with
  | nil => rfl
  | append_singleton es e ih =>
    rw [reached_concat, (adds_reached D source config s es e).counters, ih, tallyAlong_concat]

theorem handedOut_concat (os : List Outcome) (o : Outcome) :
    handedOut (os ++ [o]) = handedOut os ++ o.handle?.toList := by
  rw [handedOut, List.filterMap_append]
  cases o <;> rfl

theorem handedOut_eq_along (es : List (Event σ)) :
    handedOut (observeAll D source config s es).1 = along D source config s (handsOutBy D) es := by
  induction es using List.reverseRecOn with
  | nil => rfl
  | append_singleton es e ih => rw [observeAll_concat, handedOut_concat, ih, along_concat, handsOutBy]

/-- What became of a handle. -/
inductive Fate
  | out
  /-- It was returned while it was out. -/
  | returned
  /-- It was overdue and its connection was reclaimed. -/
  | reclaimed
  /-- A change of the configuration or the end of a shutdown closed its connection. -/
  | forceClosed
deriving DecidableEq

/-- The handles that met with a fate in a run. -/
def withFate (es : List (Event σ)) : Fate → List Handle
  | .out => (reached D source config s es).world.pool.active.map (·.handle)
  | .returned => (along D source config s returnedBy es).map (·.handle)
  | .reclaimed => (along D source config s (reclaimedBy D) es).map (·.handle)
  | .forceClosed => (along D source config s (forceClosedBy D) es).map (·.handle)

/-- **All that was handed out has met with a fate**, and nothing else has. -/
theorem fates_reached (es : List (Event σ)) : (handedOut (observeAll D source config s es).1).Perm
    (withFate D source config s es .out ++ (withFate D source config s es .returned ++
      (withFate D source config s es .reclaimed ++ withFate D source config s es .forceClosed))) := by
  induction es using List.reverseRecOn with
  | nil => exact List.Perm.refl _
  | append_singleton es e ih =>
    have hstep := (adds_reached D source config s es e).fates
    rw [← reached_concat] at hstep
    simp only [List.map_append] at hstep
    rw [observeAll_concat, handedOut_concat]
    simp only [withFate, along_concat, List.map_append] at ih ⊢
    refine (ih.append_right _).trans (List.perm_iff_count.2 fun h => ?_)
    have hcount := List.perm_iff_count.1 hstep h
    simp only [handsOutBy, List.count_append] at hcount ⊢
    omega

/-- A span is the average of a total over a number of events: the whole nanoseconds of the quotient, or
    as many as fit in a word. -/
def IsAverage (average total : Duration) (count : Nat) : Prop :=
  average.nanos = if count = 0 then 0 else min (total.nanos / count) (wordLimit - 1)

theorem isAverage_average (total : Duration) (count : Nat) :
    IsAverage (total.average count) total count := by
  unfold IsAverage Duration.average
  by_cases h : count = 0
  · rw [if_pos h, if_pos h]
    rfl
  · rw [if_neg h, if_neg h]
    show saturate (total.nanos / count) = _
    unfold saturate wordLimit
    split <;> omega

/-- The counters of a pool, and what took place in its run. -/
structure Counted (es : List (Event σ)) (k : Counters) : Prop where
  /-- No two handles have the same identity, so it makes sense to count them. -/
  once : ((handedOut (observeAll D source config s es).1).map (·.id)).Nodup
  fate : ∀ h ∈ handedOut (observeAll D source config s es).1, ∃! f,
    h ∈ withFate D source config s es f
  onlyHandles : ∀ f, ∀ h ∈ withFate D source config s es f,
    h ∈ handedOut (observeAll D source config s es).1
  requests : k.requests = (handedOut (observeAll D source config s es).1).length
  classes : k.requests = (withFate D source config s es .out).length +
    (withFate D source config s es .returned).length +
    (withFate D source config s es .reclaimed).length +
    (withFate D source config s es .forceClosed).length
  claimedOverdue : k.claimedOverdue = (withFate D source config s es .reclaimed).length
  hadToWait : k.hadToWait = (along D source config s (parksBy D) es).length
  badConnections : k.badConnections = (along D source config s (rejectedBy D) es).length +
    (along D source config s (unfitBy D) es).length + (along D source config s straysBy es).length
  waitTime : k.waitTime = .total (along D source config s slicesBy es)
  requestTime : k.requestTime = .total (along D source config s (requestTimesBy D) es)
  overdueCheckoutTime : k.overdueCheckoutTime =
    .total (along D source config s (overdueAgesBy D) es)
  checkoutTime : k.checkoutTime = k.overdueCheckoutTime +
    .total (along D source config s (checkoutAgesBy D) es)

/-- The averages that a pool reports. -/
structure Averaged (p : Pool) : Prop where
  request : IsAverage p.stats.averageRequestTime p.counters.requestTime p.counters.requests
  wait : IsAverage p.stats.averageWaitTime p.counters.waitTime p.counters.hadToWait
  checkout : IsAverage p.stats.averageCheckoutTime p.counters.checkoutTime p.counters.requests
  overdueCheckout : IsAverage p.stats.averageOverdueCheckoutTime p.counters.overdueCheckoutTime
    p.counters.claimedOverdue

/-- What is measured in an event after the events `es` are the times of the run. -/
structure Measured (es : List (Event σ)) (e : Event σ) : Prop where
  /-- A connection is out from the moment at which it is handed out. -/
  stamped : ∀ h, ((reached D source config s es).observe D e).1 = .acquired h →
    h.checkoutAt = (reached D source config s es).world.now
  /-- The time of a request counts from the moment at which the acquisition began. -/
  began : ∀ key who past, Serves D source config s es e key who past → ∀ h,
    ((reached D source config s es).observe D e).1 = .acquired h →
    (reached D source config s es).requestTimesBy D e =
      [(reached D source config s es).world.now - (reached D source config s past).world.now]
  /-- A slice of a wait counts from the moment at which the acquisition last began to wait. -/
  slept : ∀ d ∈ (reached D source config s es).slicesBy e, ∃ key past e' later,
    e = .resume key ∧ es = past ++ e' :: later ∧ Parked D source config s past e' later key ∧
      d = (reached D source config s es).world.now - (reached D source config s past).world.now
  /-- An acquisition that waits had to wait when it began, so it is counted with this event. -/
  waited : ∀ key who past, Begun D source config s es key who past →
    (reached D source config s past).parksBy D (.acquire key who) = [key]
  /-- What is reclaimed was out for too long. -/
  overdue : ∀ c ∈ (reached D source config s es).reclaimedBy D e,
    (reached D source config s es).world.pool.config.maxCheckoutTime <
      (reached D source config s es).world.now - c.checkoutAt

/-- The statistics of a pool and the run that it comes from. -/
structure Summary (es : List (Event σ)) : Prop where
  counted : Counted D source config s es (reached D source config s es).world.pool.counters
  averaged : Averaged (reached D source config s es).world.pool
  measured : ∀ past e rest, es = past ++ e :: rest → Measured D source config s past e

variable {D source config s}

theorem counted_reached (es : List (Event σ)) :
    Counted D source config s es (reached D source config s es).world.pool.counters := by
  have hperm := fates_reached D source config s es
  have honce := (owned_reached D source config s es).once
  have hnodup := hperm.nodup_iff.1 (List.Nodup.of_map _ honce)
  have hk := counters_reached D source config s es
  have hrequests : (reached D source config s es).world.pool.counters.requests =
      (handedOut (observeAll D source config s es).1).length := by
    rw [hk, handedOut_eq_along]
    rfl
  have honly : ∀ f, ∀ h ∈ withFate D source config s es f,
      h ∈ handedOut (observeAll D source config s es).1 := by
    intro f h hh
    refine hperm.mem_iff.2 ?_
    cases f <;> simp [hh]
  have hunique : ∀ h f f', h ∈ withFate D source config s es f →
      h ∈ withFate D source config s es f' → f = f' := by
    intro h f f' hf hf'
    have hcount := List.nodup_iff_count_le_one.1 hnodup h
    simp only [List.count_append] at hcount
    have hpos := List.count_pos_iff.2 hf
    have hpos' := List.count_pos_iff.2 hf'
    cases f <;> cases f' <;> first | rfl | omega
  constructor
  case once => exact honce
  case fate =>
    intro h hh
    obtain ⟨f, hf⟩ : ∃ f, h ∈ withFate D source config s es f := by
      have hmem := hperm.mem_iff.1 hh
      simp only [List.mem_append] at hmem
      rcases hmem with hmem | hmem | hmem | hmem <;> exact ⟨_, hmem⟩
    exact ⟨f, hf, fun f' hf' => hunique h f' f hf' hf⟩
  case onlyHandles => exact honly
  case requests => exact hrequests
  case classes =>
    rw [hrequests, hperm.length_eq]
    simp only [List.length_append, Nat.add_assoc]
  case claimedOverdue =>
    rw [hk, withFate, List.length_map]
    rfl
  all_goals
    rw [hk]
    rfl

theorem averaged_stats (p : Pool) : Averaged p :=
  ⟨isAverage_average _ _, isAverage_average _ _, isAverage_average _ _, isAverage_average _ _⟩

theorem measured_reached (es : List (Event σ)) (e : Event σ) :
    Measured D source config s es e := by
  have hpassed : ∀ m₀ key a, (reached D source config s es).pass? e = some (m₀, key, a) →
      ∃ rest new, (reached D source config s es).Passed D e a rest new := fun m₀ key a hpass =>
    passed_of_pass? (owned_reached D source config s es) (keyed_reached D source config s es)
      (held_reached D source config s es) hpass
  constructor
  case stamped =>
    intro h hout
    obtain ⟨⟨m₀, key, a⟩, hpass⟩ := pass?_of_acquired D hout
    obtain ⟨rest, new, hp⟩ := hpassed m₀ key a hpass
    have hnew := hp.handsOut
    rw [handsOutBy, hout] at hnew
    have hmem : h ∈ new.map (·.handle) := hnew ▸ List.mem_cons_self
    obtain ⟨c, hc, rfl⟩ := List.mem_map.1 hmem
    exact hp.stamped c hc
  case began =>
    intro key who past hserves h hout
    obtain ⟨⟨m₀, key', a⟩, hpass⟩ := pass?_of_acquired D hout
    obtain rfl : key' = key := by
      rcases pass?_cases hpass with ⟨who', rfl, -⟩ | ⟨rfl, -⟩
      · rcases hserves with ⟨he, -⟩ | ⟨he, -⟩
        · exact (Event.acquire.inj he).1
        · cases he
      · rcases hserves with ⟨he, -⟩ | ⟨he, -⟩
        · cases he
        · exact Event.resume.inj he
    simp only [requestTimesBy, hpass, hout, startedAt_of_serves hserves hpass]
  case slept =>
    intro d hd
    cases e with
    | resume key =>
      cases hk : (reached D source config s es).waiter? key with
      | none => simp [slicesBy, hk] at hd
      | some p =>
        by_cases hdue : p.due (reached D source config s es).world.now = true
        · simp only [slicesBy, hk, if_pos hdue, List.mem_singleton] at hd
          obtain ⟨past, e', later, hes, hparked, hsince⟩ := parked_of_waits es (mem_of_lookup hk)
          exact ⟨key, past, e', later, rfl, hes, hparked, hsince ▸ hd⟩
        · simp [slicesBy, hk, hdue] at hd
    | _ => cases hd
  case waited =>
    intro key who past hbegun
    simp only [parksBy, hbegun.waiting]
  case overdue =>
    intro c hc
    rcases hpass : (reached D source config s es).pass? e with _ | ⟨m₀, key, a⟩
    · simp [reclaimedBy, hpass] at hc
    · obtain ⟨rest, new, hp⟩ := hpassed m₀ key a hpass
      exact hp.overdue c hc

variable (D source config s)

/-- **The statistics are an exact summary of the run.** -/
theorem exact_summary (es : List (Event σ)) : Summary D source config s es :=
  ⟨counted_reached es, averaged_stats _, fun past e _ _ => measured_reached past e⟩

end Runs

end Machine

end ConnPool
