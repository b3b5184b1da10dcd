/-
  Where the workers of a rehearsal are.

  At every stage of a rehearsal each worker is in one place: it has the turn, stands in the queue,
  sleeps until its timer ends, waits for a connection without a timer, or has finished.  `Places` is the
  part of a rehearsal in which this can be seen, and `Places.Sensible` says how its parts fit together:

  * who holds a connection has a timer that ends with the hold, or is in the queue and the hold is over;
  * who waits and is in the queue can go on, and a timer of who waits is the end of its slice;
  * who is nowhere has no iteration left.

  Each thing that a move does to the places is one lemma, about lists and nothing else.
-/
import ConnPool.Proofs.Simulation.Service

namespace ConnPool

open Machine (without mem_without)

/-- Where the workers are. -/
structure Places where
  now : Instant
  queue : List Nat
  timers : List (Nat × Instant)
  remaining : List Nat
  waiters : List (Key × Waiter)
  handles : List (Key × Handle)

namespace Places

variable {p : Places} {hold : Duration} {turn : Option Nat} {w : Nat}

/-- Those who wait for a connection and are not in the queue. -/
def absent (p : Places) : List Nat :=
  (p.waiters.map (·.1)).filter fun w => !p.queue.contains w

/-- All who wait are woken, and queued; the timers of those who were not in the queue are taken down. -/
def wake (p : Places) : Places :=
  { p with
    queue := p.queue ++ p.absent
    timers := p.timers.filter fun t => !p.absent.contains t.1
    waiters := p.waiters.map fun e => (e.1, { e.2 with woken := true }) }

/-- The clock moves on, and those whose time has come make up the queue. -/
def tickTo (p : Places) (now : Instant) : Places :=
  { p with
    now
    queue := (p.timers.filter fun t => t.2 ≤ now).map (·.1)
    timers := p.timers.filter fun t => !decide (t.2 ≤ now) }

/-- The places of the workers fit together, when connections are held so long and this worker has the
    turn. -/
structure Sensible (hold : Duration) (turn : Option Nat) (p : Places) : Prop where
  once : (turn.toList ++ (p.queue ++ p.timers.map (·.1))).Nodup
  known : ∀ w ∈ turn.toList ++ (p.queue ++ p.timers.map (·.1)), w < p.remaining.length
  present : ∀ w ∈ p.waiters.map (·.1) ++ p.handles.map (·.1), w < p.remaining.length
  free : ∀ w ∈ turn, w ∉ p.waiters.map (·.1) ++ p.handles.map (·.1)
  millis : p.now.nanos % 1000000 = 0
  future : ∀ t ∈ p.timers, p.now < t.2
  holders : ∀ e ∈ p.handles, e.2.checkoutAt.nanos % 1000000 = 0 ∧
    (e.1 ∈ p.queue ∧ p.now = e.2.checkoutAt + hold ∨ (e.1, e.2.checkoutAt + hold) ∈ p.timers)
  queued : ∀ e ∈ p.waiters, e.1 ∈ p.queue → e.2.due p.now = true
  timed : ∀ e ∈ p.waiters, ∀ d, (e.1, d) ∈ p.timers → e.2.deadline? = some d
  finished : ∀ v < p.remaining.length, v ∉ turn → v ∉ p.queue →
    v ∉ p.waiters.map (·.1) ++ p.handles.map (·.1) → p.remaining[v]? = some 0

namespace Sensible

/-- The worker at the head of the queue takes the turn, and neither waits nor holds anything then. -/
theorem calls (h : p.Sensible hold none) {rest : List Nat} (hqueue : p.queue = w :: rest) :
    Sensible hold (some w) { p with
      queue := rest
      waiters := without w p.waiters
      handles := without w p.handles } := by
  have honce := h.once
  have hknown := h.known
  rw [hqueue] at honce hknown
  have hsub : ∀ v, v ∈ (without w p.waiters).map (·.1) ++ (without w p.handles).map (·.1) ↔
      v ∈ p.waiters.map (·.1) ++ p.handles.map (·.1) ∧ v ≠ w := by
    intro v
    simp only [List.mem_append, List.mem_map, mem_without]
    constructor
    · rintro (⟨e, ⟨he, hne⟩, rfl⟩ | ⟨e, ⟨he, hne⟩, rfl⟩)
      · exact ⟨Or.inl ⟨e, he, rfl⟩, hne⟩
      · exact ⟨Or.inr ⟨e, he, rfl⟩, hne⟩
    · rintro ⟨⟨e, he, rfl⟩ | ⟨e, he, rfl⟩, hne⟩
      · exact Or.inl ⟨e, ⟨he, hne⟩, rfl⟩
      · exact Or.inr ⟨e, ⟨he, hne⟩, rfl⟩
  constructor
  case once => exact honce
  case known => exact hknown
  case present => exact fun v hv => h.present v ((hsub v).1 hv).1
  case free =>
    rintro v ⟨⟩ hv
    exact ((hsub w).1 hv).2 rfl
  case millis => exact h.millis
  case future => exact h.future
  case holders =>
    intro e he
    obtain ⟨hmem, hne⟩ := mem_without.1 he
    obtain ⟨hmillis, ⟨hin, hover⟩ | htimer⟩ := h.holders e hmem
    · rw [hqueue] at hin
      exact ⟨hmillis, Or.inl ⟨(List.mem_cons.1 hin).resolve_left hne, hover⟩⟩
    · exact ⟨hmillis, Or.inr htimer⟩
  case queued =>
    intro e he hin
    refine h.queued e (mem_without.1 he).1 ?_
    rw [hqueue]
    exact List.mem_cons_of_mem _ hin
  case timed => exact fun e he => h.timed e (mem_without.1 he).1
  case finished =>
    intro v hlt hturn hqueued hnot
    have hne : v ≠ w := fun he => hturn (he ▸ rfl)
    refine h.finished v hlt nofun ?_ fun hv => hnot ((hsub v).2 ⟨hv, hne⟩)
    rw [hqueue]
    exact fun hv => (List.mem_cons.1 hv).elim hne hqueued

/-- The worker with the turn has another number of iterations left. -/
theorem leaves (h : p.Sensible hold (some w)) (n : Nat) :
    Sensible hold (some w) { p with remaining := p.remaining.set w n } where
  once := h.once
  known v hv := by
    rw [List.length_set]
    exact h.known v hv
  present v hv := by
    rw [List.length_set]
    exact h.present v hv
  free := h.free
  millis := h.millis
  future := h.future
  holders := h.holders
  queued := h.queued
  timed := h.timed
  finished v hlt hturn hqueued hnot := by
    rw [List.length_set] at hlt
    have hne : w ≠ v := fun he => hturn (he ▸ rfl)
    rw [List.getElem?_set_ne hne]
    exact h.finished v hlt hturn hqueued hnot

/-- The worker with the turn gives it back when it has no iteration left. -/
theorem stops (h : p.Sensible hold (some w)) (hleft : p.remaining[w]? = some 0) :
    p.Sensible hold none where
  once := (List.nodup_cons.1 h.once).2
  known v hv := h.known v (List.mem_cons_of_mem _ hv)
  present := h.present
  free := nofun
  millis := h.millis
  future := h.future
  holders := h.holders
  queued := h.queued
  timed := h.timed
  finished v hlt _ hqueued hnot := by
    by_cases he : w = v
    · exact he ▸ hleft
    · exact h.finished v hlt (fun hturn => he (Option.some.inj hturn)) hqueued hnot

/-- A timer is set for the worker with the turn, which gives the turn back. -/
theorem sleeps (h : p.Sensible hold (some w)) (timers : List (Nat × Instant))
    (htimers : timers.map (·.1) = [] ∨ timers.map (·.1) = [w]) :
    (p.queue ++ (p.timers ++ timers).map (·.1)).Nodup ∧
      ∀ v ∈ p.queue ++ (p.timers ++ timers).map (·.1), v < p.remaining.length := by
  have hperm : (w :: (p.queue ++ p.timers.map (·.1))).Perm
      (p.queue ++ (p.timers.map (·.1) ++ [w])) := by
    rw [← List.append_assoc]
    exact (List.perm_append_singleton _ _).symm
  rw [List.map_append]
  rcases htimers with ht | ht
  · rw [ht, List.append_nil]
    exact ⟨(List.nodup_cons.1 h.once).2, fun v hv => h.known v (List.mem_cons_of_mem _ hv)⟩
  · rw [ht]
    exact ⟨hperm.nodup_iff.1 h.once, fun v hv => h.known v (hperm.mem_iff.2 hv)⟩

/-- The worker with the turn will be found among those who wait or hold a connection. -/
theorem joins (h : p.Sensible hold (some w)) (keys : List Nat)
    (hkeys : ∀ v, v ∈ keys ↔ v ∈ p.waiters.map (·.1) ++ p.handles.map (·.1) ∨ v = w) :
    (∀ v ∈ keys, v < p.remaining.length) ∧
      ∀ v < p.remaining.length, v ∉ p.queue → v ∉ keys → p.remaining[v]? = some 0 := by
  constructor
  · intro v hv
    rcases (hkeys v).1 hv with hv | rfl
    · exact h.present v hv
    · exact h.known v List.mem_cons_self
  · intro v hlt hqueued hnot
    rw [hkeys, not_or] at hnot
    exact h.finished v hlt (fun hturn => hnot.2 (Option.some.inj hturn).symm) hqueued hnot.1

/-- The worker with the turn was handed a connection, and sleeps. -/
theorem holds (h : p.Sensible hold (some w)) {hd : Handle} (hstamp : hd.checkoutAt = p.now)
    (hlong : Duration.zero < hold) : Sensible hold none { p with
      timers := p.timers ++ [(w, p.now + hold)]
      handles := p.handles ++ [(w, hd)] } := by
  have hsleeps := h.sleeps [(w, p.now + hold)] (Or.inr rfl)
  have hjoins := h.joins (p.waiters.map (·.1) ++ (p.handles ++ [(w, hd)]).map (·.1))
    fun v => by
      rw [List.map_append, ← List.append_assoc, List.mem_append, List.map_singleton,
        List.mem_singleton]
  constructor
  case once => exact hsleeps.1
  case known => exact hsleeps.2
  case present => exact hjoins.1
  case free => exact nofun
  case millis => exact h.millis
  case future =>
    intro t ht
    rcases List.mem_append.1 ht with ht | ht
    · exact h.future t ht
    · rw [List.mem_singleton.1 ht]
      exact Nat.lt_add_of_pos_right hlong
  case holders =>
    intro e he
    rcases List.mem_append.1 he with he | he
    · obtain ⟨hmillis, hover | htimer⟩ := h.holders e he
      · exact ⟨hmillis, Or.inl hover⟩
      · exact ⟨hmillis, Or.inr (List.mem_append_left _ htimer)⟩
    · rw [List.mem_singleton.1 he, hstamp]
      exact ⟨h.millis, Or.inr (List.mem_append_right _ List.mem_cons_self)⟩
  case queued => exact h.queued
  case timed =>
    intro e he d ht
    rcases List.mem_append.1 ht with ht | ht
    · exact h.timed e he d ht
    · obtain ⟨hkey, -⟩ := Prod.mk.inj (List.mem_singleton.1 ht)
      exact absurd (List.mem_append_left _ (hkey ▸ List.mem_map_of_mem he)) (h.free w rfl)
  case finished => exact fun v hlt _ => hjoins.2 v hlt

/-- The worker with the turn waits for a connection, with a timer if its slice has an end. -/
theorem parks (h : p.Sensible hold (some w)) {wt : Waiter} (hsince : wt.since = p.now) :
    Sensible hold none { p with
      timers := p.timers ++ (wt.deadline?.map fun d => (w, d)).toList
      waiters := p.waiters ++ [(w, wt)] } := by
  have hsleeps := h.sleeps (wt.deadline?.map fun d => (w, d)).toList (by
    cases wt.deadline? with
    | none => exact Or.inl rfl
    | some d => exact Or.inr rfl)
  have hjoins := h.joins ((p.waiters ++ [(w, wt)]).map (·.1) ++ p.handles.map (·.1))
    fun v => by
      simp only [List.map_append, List.map_cons, List.map_nil, List.mem_append, List.mem_singleton]
      tauto
  have hfree := h.free w rfl
  have hout := (List.nodup_cons.1 h.once).1
  have htimer : ∀ t ∈ (wt.deadline?.map fun d => (w, d)).toList,
      t.1 = w ∧ wt.deadline? = some t.2 := by
    intro t ht
    obtain ⟨d, hd, rfl⟩ := Option.map_eq_some_iff.1 (Option.mem_toList.1 ht)
    exact ⟨rfl, hd⟩
  constructor
  case once => exact hsleeps.1
  case known => exact hsleeps.2
  case present => exact hjoins.1
  case free => exact nofun
  case millis => exact h.millis
  case future =>
    intro t ht
    rcases List.mem_append.1 ht with ht | ht
    · exact h.future t ht
    · have hend := (htimer t ht).2
      unfold Waiter.deadline? at hend
      split at hend
      · nomatch hend
      next hslice =>
        rw [← Option.some.inj hend, hsince]
        exact Nat.lt_add_of_pos_right (Nat.pos_of_ne_zero fun h0 => hslice (Duration.ext h0))
  case holders =>
    intro e he
    obtain ⟨hmillis, hover | htimer⟩ := h.holders e he
    · exact ⟨hmillis, Or.inl hover⟩
    · exact ⟨hmillis, Or.inr (List.mem_append_left _ htimer)⟩
  case queued =>
    intro e he hin
    rcases List.mem_append.1 he with he | he
    · exact h.queued e he hin
    · -- the worker with the turn is not in the queue
      rw [List.mem_singleton.1 he] at hin
      exact absurd (List.mem_append_left _ hin) hout
  case timed =>
    intro e he d ht
    rcases List.mem_append.1 he with he | he
    · rcases List.mem_append.1 ht with ht | ht
      · exact h.timed e he d ht
      · have hkey : e.1 = w := (htimer _ ht).1
        exact absurd (List.mem_append_left _ (hkey ▸ List.mem_map_of_mem he)) hfree
    · obtain rfl := List.mem_singleton.1 he
      rcases List.mem_append.1 ht with ht | ht
      · exact absurd (List.mem_append_right _ (List.mem_map_of_mem ht)) hout
      · exact (htimer _ ht).2
  case finished => exact fun v hlt _ => hjoins.2 v hlt

theorem wake_keys (p : Places) : p.wake.waiters.map (·.1) = p.waiters.map (·.1) := by
  simp only [wake, List.map_map]
  rfl

theorem mem_absent {v : Nat} : v ∈ p.absent ↔ v ∈ p.waiters.map (·.1) ∧ v ∉ p.queue := by
  rw [absent, List.mem_filter, Bool.not_eq_true', List.contains_eq_mem, decide_eq_false_iff_not]

theorem mem_wake_timers {t : Nat × Instant} :
    t ∈ p.wake.timers ↔ t ∈ p.timers ∧ t.1 ∉ p.absent := by
  rw [wake, List.mem_filter, Bool.not_eq_true', List.contains_eq_mem, decide_eq_false_iff_not]

/-- Whoever waits is in the queue once all are woken. -/
theorem queued_of_wake {v : Nat} (hv : v ∈ p.wake.waiters.map (·.1)) : v ∈ p.wake.queue := by
  rw [wake_keys] at hv
  by_cases hin : v ∈ p.queue
  · exact List.mem_append_left _ hin
  · exact List.mem_append_right _ (mem_absent.2 ⟨hv, hin⟩)

/-- All who wait are woken and queued. -/
theorem wakes (h : p.Sensible hold turn) (hkeyed : (p.waiters.map (·.1)).Nodup)
    (hapart : ∀ v ∈ p.handles.map (·.1), v ∉ p.waiters.map (·.1)) :
    p.wake.Sensible hold turn := by
  have htimers : (p.wake.timers.map (·.1)).Sublist (p.timers.map (·.1)) :=
    List.filter_sublist.map _
  have hold' : (turn.toList ++ (p.queue ++ p.wake.timers.map (·.1))).Nodup :=
    h.once.sublist ((htimers.append_left p.queue).append_left turn.toList)
  have hperm : (turn.toList ++ (p.wake.queue ++ p.wake.timers.map (·.1))).Perm
      (p.absent ++ (turn.toList ++ (p.queue ++ p.wake.timers.map (·.1)))) := by
    have hqueue : p.wake.queue = p.queue ++ p.absent := rfl
    rw [hqueue, List.append_assoc]
    refine List.Perm.trans ?_ (List.perm_append_comm_assoc _ _ _)
    exact (List.perm_append_comm_assoc _ _ _).append_left _
  constructor
  case once =>
    rw [hperm.nodup_iff, List.nodup_append]
    refine ⟨hkeyed.sublist List.filter_sublist, hold', ?_⟩
    rintro v hv u hu rfl
    obtain ⟨hwaits, hnot⟩ := mem_absent.1 hv
    rcases List.mem_append.1 hu with hu | hu
    · exact h.free v (Option.mem_toList.1 hu) (List.mem_append_left _ hwaits)
    · rcases List.mem_append.1 hu with hu | hu
      · exact hnot hu
      · obtain ⟨t, ht, rfl⟩ := List.mem_map.1 hu
        exact (mem_wake_timers.1 ht).2 hv
  case known =>
    intro v hv
    rcases List.mem_append.1 (hperm.mem_iff.1 hv) with hv | hv
    · exact h.present v (List.mem_append_left _ (mem_absent.1 hv).1)
    · exact h.known v (((htimers.append_left p.queue).append_left turn.toList).subset hv)
  case present =>
    rw [wake_keys]
    exact h.present
  case free =>
    rw [wake_keys]
    exact h.free
  case millis => exact h.millis
  case future => exact fun t ht => h.future t (mem_wake_timers.1 ht).1
  case holders =>
    intro e he
    obtain ⟨hmillis, ⟨hin, hover⟩ | htimer⟩ := h.holders e he
    · exact ⟨hmillis, Or.inl ⟨List.mem_append_left _ hin, hover⟩⟩
    · -- who holds a connection does not wait, and keeps its timer
      refine ⟨hmillis, Or.inr (mem_wake_timers.2 ⟨htimer, fun hmem => ?_⟩)⟩
      exact hapart e.1 (List.mem_map_of_mem he) (mem_absent.1 hmem).1
  case queued =>
    intro e he _
    obtain ⟨e', -, rfl⟩ := List.mem_map.1 he
    rfl
  case timed =>
    intro e he d ht
    obtain ⟨e', he', rfl⟩ := List.mem_map.1 he
    exact h.timed e' he' d (mem_wake_timers.1 ht).1
  case finished =>
    intro v hlt hturn hqueued hnot
    rw [wake_keys] at hnot
    exact h.finished v hlt hturn (fun hv => hqueued (List.mem_append_left _ hv)) hnot

/-- A millisecond passes. -/
theorem ticks {n : Nat} (h : p.Sensible (.ofMillis n) none) (hqueue : p.queue = []) :
    (p.tickTo (p.now + .ofMillis 1)).Sensible (.ofMillis n) none := by
  have hperm : ((p.tickTo (p.now + .ofMillis 1)).queue ++
      (p.tickTo (p.now + .ofMillis 1)).timers.map (·.1)).Perm (p.timers.map (·.1)) := by
    simp only [tickTo, ← List.map_append]
    exact (List.filter_append_perm _ _).map _
  have hin : ∀ t ∈ p.timers, t.2 ≤ p.now + .ofMillis 1 →
      t.1 ∈ (p.tickTo (p.now + .ofMillis 1)).queue := fun t ht hle =>
    List.mem_map_of_mem (List.mem_filter.2 ⟨ht, decide_eq_true hle⟩)
  have hstays : ∀ t ∈ p.timers, ¬ t.2 ≤ p.now + .ofMillis 1 →
      t ∈ (p.tickTo (p.now + .ofMillis 1)).timers := fun t ht hle =>
    List.mem_filter.2 ⟨ht, by simpa using hle⟩
  have hold := h.once
  have hknown := h.known
  have hmillis := h.millis
  rw [hqueue] at hold hknown
  have hnow : (p.tickTo (p.now + .ofMillis 1)).now.nanos = p.now.nanos + 1000000 := rfl
  constructor
  case once => exact hperm.nodup_iff.2 hold
  case known => exact fun v hv => hknown v (hperm.mem_iff.1 hv)
  case present => exact h.present
  case free => exact nofun
  case millis =>
    rw [hnow]
    omega
  case future =>
    intro t ht
    have hlate := (List.mem_filter.1 ht).2
    rw [Bool.not_eq_true', decide_eq_false_iff_not, Duration.le_iff] at hlate
    exact Nat.lt_of_not_le hlate
  case holders =>
    intro e he
    obtain ⟨hstamp, ⟨hmem, -⟩ | htimer⟩ := h.holders e he
    · rw [hqueue] at hmem
      nomatch hmem
    · refine ⟨hstamp, ?_⟩
      by_cases hle : e.2.checkoutAt + .ofMillis n ≤ p.now + .ofMillis 1
      · refine Or.inl ⟨hin _ htimer hle, Duration.ext ?_⟩
        -- a hold ends with a whole millisecond, and this one had not ended before
        have hlate := Duration.lt_iff.1 (h.future _ htimer)
        rw [Duration.le_iff] at hle
        simp only [Duration.nanos_add, Duration.nanos_ofMillis] at hle hlate ⊢
        rw [hnow]
        omega
      · exact Or.inr (hstays _ htimer hle)
  case queued =>
    intro e he hmem
    obtain ⟨t, ht, hkey⟩ := List.mem_map.1 hmem
    obtain ⟨ht, hle⟩ := List.mem_filter.1 ht
    have hend := h.timed e he t.2 (hkey ▸ ht)
    rw [Waiter.due, hend]
    simp only [Option.any_some]
    rw [Bool.or_eq_true]
    exact Or.inr hle
  case timed => exact fun e he d ht => h.timed e he d (List.mem_filter.1 ht).1
  case finished =>
    intro v hlt hturn hqueued hnot
    refine h.finished v hlt hturn ?_ hnot
    rw [hqueue]
    exact List.not_mem_nil

end Sensible

end Places

end ConnPool
