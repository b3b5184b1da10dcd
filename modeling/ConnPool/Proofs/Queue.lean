/-
  Who waits since when.

  An event makes a pass when an acquisition begins, or when one that waits is due and goes on
  (`pass?`).  A pass may let its acquisition wait, and nothing else does: whoever waits after an event
  waited before it, and was at most woken, or its acquisition made the pass of the event and waits since
  this moment (`observe_queue`).  The latter has waited, so whoever waits is known to have waited
  (`AllWaited`), it waits since the last event that made a pass for it (`Parked`, `parked_of_waits`), and
  its acquisition began when it remembers (`startedAt_of_waits`).
-/
import ConnPool.Proofs.Callers

namespace ConnPool

variable {σ τ : Type}

/-! ## Waiters -/

/-- The same waiter a moment later; it may have been woken. -/
structure Waiter.Stays (p p' : Waiter) : Prop where
  acquisition : p'.acquisition = p.acquisition
  since : p'.since = p.since
  slice : p'.slice = p.slice

theorem Waiter.Stays.refl (p : Waiter) : p.Stays p := ⟨rfl, rfl, rfl⟩

/-- The waiter that an acquisition becomes that has to wait. -/
structure Acquisition.Parks (a : Acquisition) (now : Instant) (p : Waiter) : Prop where
  who : p.acquisition.who = a.who
  startedAt : p.acquisition.startedAt = a.startedAt
  waited : p.acquisition.waited = true
  since : p.since = now

namespace Machine

/-! ## The pass of an event -/

/-- The machine on which a waiting acquisition goes on: it is out of the queue, and the time that it
    waited is counted. -/
def recalled (m : Machine τ) (key : Key) (p : Waiter) : Machine τ :=
  { m with
    waiters := without key m.waiters
    world := m.world.onPool (·.count fun k =>
      { k with waitTime := k.waitTime + (m.world.now - p.since) }) }

/-- The pass that an event makes: on which machine, under which key and for which acquisition. -/
def pass? (m : Machine τ) : Event σ → Option (Machine τ × Key × Acquisition)
  | .acquire key who =>
    if m.held && m.isFree key then
      some (m, key, {
        who := who.getD m.world.pool.source.config.credentials
        startedAt := m.world.now })
    else none
  | .resume key =>
    match m.waiter? key with
    | none => none
    | some p => if p.due m.world.now then some (m.recalled key p, key, p.acquisition) else none
  | _ => none

theorem pass?_acquire {m : Machine τ} {key : Key} {who : Option Credentials}
    (h : m.admits (.acquire key who) = true) : m.pass? (.acquire key who : Event σ) =
      some (m, key, {
        who := who.getD m.world.pool.source.config.credentials
        startedAt := m.world.now }) :=
  if_pos h

/-- An event that makes a pass begins an acquisition, or resumes one that is due. -/
theorem pass?_cases {m m₀ : Machine τ} {e : Event σ} {key : Key} {a : Acquisition}
    (h : m.pass? e = some (m₀, key, a)) :
    (∃ who, e = .acquire key who ∧ m.admits (.acquire key who) = true ∧ m₀ = m ∧
      a = { who := who.getD m.world.pool.source.config.credentials, startedAt := m.world.now }) ∨
    (e = .resume key ∧ ∃ p, m.waiter? key = some p ∧ p.due m.world.now = true ∧
      m₀ = m.recalled key p ∧ a = p.acquisition) := by
  cases e with
  | acquire key' who =>
    by_cases hadmits : m.admits (.acquire key' who) = true
    · rw [pass?_acquire hadmits] at h
      obtain ⟨rfl, rfl, rfl⟩ := h
      exact Or.inl ⟨who, rfl, hadmits, rfl, rfl⟩
    · exact nomatch (show none = some _ from (if_neg hadmits).symm.trans h)
  | resume key' =>
    cases hk : m.waiter? key' with
    | none => simp [pass?, hk] at h
    | some p =>
      by_cases hd : p.due m.world.now = true
      · simp only [pass?, hk, if_pos hd] at h
        obtain ⟨rfl, rfl, rfl⟩ := h
        exact Or.inr ⟨rfl, p, hk, hd, rfl, rfl⟩
      · simp [pass?, hk, if_neg hd] at h
  | _ => nomatch h

theorem resume_of_due (D : Drivers τ) {m : Machine τ} {key : Key} {p : Waiter}
    (hk : m.waiter? key = some p) (hd : p.due m.world.now = true) :
    m.resume D key = (m.recalled key p).pass D key p.acquisition := by
  simp only [resume, hk, if_pos hd]
  rfl

/-- A resumption that makes no pass does nothing. -/
theorem resume_of_pass?_eq_none (D : Drivers τ) {m : Machine τ} {key : Key}
    (h : m.pass? (.resume key : Event σ) = none) :
    ∃ o, m.resume D key = (o, m) ∧ (o = .nothing ∨ o = .waiting) := by
  cases hk : m.waiter? key with
  | none => exact ⟨.nothing, by simp only [resume, hk], Or.inl rfl⟩
  | some p =>
    by_cases hd : p.due m.world.now = true
    · simp [pass?, hk, hd] at h
    · exact ⟨.waiting, by simp only [resume, hk, if_neg hd], Or.inr rfl⟩

/-- An event that makes a pass is this pass. -/
theorem react_of_pass? (D : Drivers τ) {m m₀ : Machine τ} {e : Event τ} {key : Key}
    {a : Acquisition} (h : m.pass? e = some (m₀, key, a)) : m.react D e = m₀.pass D key a := by
  rcases pass?_cases h with ⟨who, rfl, -, rfl, rfl⟩ | ⟨rfl, p, hk, hd, rfl, rfl⟩
  · rfl
  · exact resume_of_due D hk hd

/-- Only a pass hands something out. -/
theorem not_acquired_of_pass?_eq_none (D : Drivers τ) {m : Machine τ} {e : Event τ}
    (hadmits : m.admits e = true) (h : m.pass? e = none) (hd : Handle) :
    (m.react D e).1 ≠ .acquired hd := by
  cases e with
  | acquire key who => cases h.symm.trans (pass?_acquire hadmits)
  | resume key =>
    obtain ⟨o, e, ho⟩ := resume_of_pass?_eq_none D h
    rw [react, e]
    rcases ho with rfl | rfl <;> simp
  | use key call =>
    show (m.use D key call).1 ≠ _
    rcases m.use_cases D key call with ⟨-, e⟩ | ⟨h', -, -, e⟩ | ⟨h', o, -, -, e, ho⟩
    · rw [e]
      simp
    · rw [e]
      simp
    · rw [e]
      exact ho hd
  | shutDown key =>
    show (m.shutDown D key).1 ≠ _
    rw [shutDown]
    rcases lookAt_cases D _ key _ with ⟨out, e⟩ | ⟨drain, e⟩
    all_goals
      rw [e]
      simp
  | look key =>
    show (m.look D key).1 ≠ _
    rcases m.look_cases D key with ⟨o, e, ho⟩ | ⟨d, -, e⟩
    · rw [e]
      exact ho hd
    · rw [e]
      rcases lookAt_cases D _ key _ with ⟨out, e⟩ | ⟨drain, e⟩
      all_goals
        rw [e]
        simp
  | _ => exact Outcome.noConfusion

theorem pass?_observed (m : Machine (Observed σ)) (e : Event σ) : m.pass? e.observed = m.pass? e := by
  cases e <;> rfl

theorem admits_of_pass? {m m₀ : Machine (Observed σ)} {e : Event σ} {key : Key} {a : Acquisition}
    (h : m.pass? e = some (m₀, key, a)) : m.admits e.observed = true := by
  rcases pass?_cases h with ⟨who, rfl, hadmits, -⟩ | ⟨rfl, -⟩
  · exact hadmits
  · rfl

/-- A pass is made with the pool's view of the drivers. -/
theorem react_observed_of_pass? (D : Drivers σ) {m m₀ : Machine (Observed σ)} {e : Event σ}
    {key : Key} {a : Acquisition} (h : m.pass? e = some (m₀, key, a)) :
    m.react (e.observed.view (D.observed .pool) (D.observed .holder)) e.observed =
      m₀.pass (D.observed .pool) key a := by
  have hview : e.observed.view (D.observed .pool) (D.observed .holder) = D.observed .pool := by
    rcases pass?_cases h with ⟨who, rfl, -⟩ | ⟨rfl, -⟩ <;> rfl
  rw [hview]
  exact react_of_pass? _ ((m.pass?_observed e).trans h)

theorem observe_of_pass? (D : Drivers σ) {m m₀ : Machine (Observed σ)} {e : Event σ} {key : Key}
    {a : Acquisition} (h : m.pass? e = some (m₀, key, a)) : m.observe D e =
      ((m₀.pass (D.observed .pool) key a).1,
        (m₀.pass (D.observed .pool) key a).2.settle (D.observed .pool)) := by
  simp only [observe, stepAs, admits_of_pass? h, if_true, react_observed_of_pass? D h]

/-- An event that hands something out makes a pass. -/
theorem pass?_of_acquired (D : Drivers σ) {m : Machine (Observed σ)} {e : Event σ} {hd : Handle}
    (h : (m.observe D e).1 = .acquired hd) : ∃ x, m.pass? e = some x := by
  rw [← Option.isSome_iff_exists, Option.isSome_iff_ne_none]
  intro hnone
  unfold observe stepAs at h
  split at h
  case isFalse => nomatch h
  case isTrue hadmits =>
    exact not_acquired_of_pass?_eq_none _ hadmits ((m.pass?_observed e).trans hnone) hd h

/-! ## The queue after an event -/

/-- What waits after a pass waited before, or it is the acquisition of the pass, which has to wait. -/
theorem pass_queue (P : Drivers τ) (m : Machine τ) (key : Key) (a : Acquisition) {key' : Key}
    {p' : Waiter} (h : (key', p') ∈ (m.pass P key a).2.waiters) :
    (key', p') ∈ m.waiters ∨
      key' = key ∧ (m.pass P key a).1 = .waiting ∧ a.Parks m.world.now p' := by
  rcases m.pass_cases P key a with ⟨-, e⟩ | ⟨-, budget, ⟨hd, w, -, e⟩ | ⟨err, w, -, e⟩ |
    ⟨r, w, f, ht, e⟩ | ⟨w, -, e⟩⟩
  · rw [e] at h
    exact Or.inl h
  · rw [e] at h
    exact Or.inl h
  · rw [e] at h
    exact Or.inl h
  · have hnow := World.tryOut_now P a.who a.startedAt budget a.rejected m.world
    rw [ht] at hnow
    rw [e] at h ⊢
    rcases List.mem_append.1 h with h | h
    · exact Or.inl h
    · obtain ⟨rfl, rfl⟩ := Prod.mk.inj (List.mem_singleton.1 h)
      exact Or.inr ⟨rfl, rfl, rfl, rfl, rfl, hnow⟩
  · rw [e] at h
    exact Or.inl h

/-- How a waiter came to wait under a key after an event. -/
inductive Queued (m : Machine τ) (e : Event σ) (o : Outcome) (key : Key) (p' : Waiter) : Prop
  /-- It did before, and the event made no pass for it. -/
  | stayed {p : Waiter} (old : (key, p) ∈ m.waiters) (stays : p.Stays p')
      (passes : ∀ m₀ a, m.pass? e ≠ some (m₀, key, a))
  /-- The event made a pass for it. -/
  | parked {m₀ : Machine τ} {a : Acquisition} (passes : m.pass? e = some (m₀, key, a))
      (waiting : o = .waiting) (parks : a.Parks m.world.now p')

/-- Whoever still waits when nobody makes a pass was at most woken. -/
theorem queued_of_stays {m : Machine τ} {e : Event σ} {o : Outcome} {key : Key} {p' : Waiter}
    {queue : List (Key × Waiter)} (hpass : m.pass? e = none) (h : (key, p') ∈ queue)
    (hqueue : ∀ x ∈ queue, ∃ p, (x.1, p) ∈ m.waiters ∧ p.Stays x.2) : m.Queued e o key p' := by
  obtain ⟨p, hp, hstays⟩ := hqueue _ h
  exact .stayed hp hstays fun m₀ a he => nomatch hpass.symm.trans he

/-- To be woken is to stay. -/
theorem stays_of_wakeAll {m : Machine τ} {queue : List (Key × Waiter)}
    (h : ∀ x ∈ queue, x ∈ m.waiters) :
    ∀ x ∈ queue.map (fun x : Key × Waiter => (x.1, { x.2 with woken := true })),
      ∃ p, (x.1, p) ∈ m.waiters ∧ p.Stays x.2 := by
  intro x hx
  obtain ⟨y, hy, rfl⟩ := List.mem_map.1 hx
  exact ⟨y.2, h y hy, rfl, rfl, rfl⟩

theorem stays_of_subset {m : Machine τ} {queue : List (Key × Waiter)} (h : queue ⊆ m.waiters) :
    ∀ x ∈ queue, ∃ p, (x.1, p) ∈ m.waiters ∧ p.Stays x.2 :=
  fun x hx => ⟨x.2, h hx, Waiter.Stays.refl _⟩

/-- The key of a waiter is not free. -/
theorem not_isFree_of_mem {m : Machine τ} {key : Key} {p : Waiter} (h : (key, p) ∈ m.waiters) :
    m.isFree key = false := by
  have hne : m.waiter? key ≠ none := by
    intro hnone
    have := List.lookup_eq_none_iff.1 hnone _ h
    simp at this
  cases hk : m.waiter? key with
  | none => exact absurd hk hne
  | some p => simp [isFree, hk]

/-- Who waits after an event that makes a pass. -/
theorem queued_of_pass (P : Drivers τ) {m m₀ : Machine τ} {e : Event σ} {key key' : Key}
    {a : Acquisition} {p' : Waiter} (hpass : m.pass? e = some (m₀, key', a))
    (h : (key, p') ∈ (m₀.pass P key' a).2.waiters) :
    m.Queued e (m₀.pass P key' a).1 key p' := by
  have hsub : m₀.waiters ⊆ m.waiters ∧ (∀ p, (key', p) ∉ m₀.waiters) ∧
      m₀.world.now = m.world.now := by
    rcases pass?_cases hpass with ⟨who, -, hadmits, rfl, -⟩ | ⟨-, p, -, -, rfl, -⟩
    · refine ⟨List.Subset.refl _, fun p hp => ?_, rfl⟩
      simp [admits, not_isFree_of_mem hp] at hadmits
    · refine ⟨List.filter_sublist.subset, fun p hp => ?_, rfl⟩
      simpa using (List.mem_filter.1 hp).2
  obtain ⟨hwaiters, hgone, hnow⟩ := hsub
  rcases pass_queue P m₀ key' a h with h | ⟨rfl, hout, hparks⟩
  · refine .stayed (hwaiters h) (Waiter.Stays.refl _) fun m₁ a₁ he => ?_
    -- the acquisition of the pass is not in the queue
    obtain ⟨-, rfl, -⟩ := Prod.mk.inj (Option.some.inj (hpass.symm.trans he)) |>.imp_right Prod.mk.inj
    exact hgone p' h
  · exact .parked hpass hout (hnow ▸ hparks)

/-- **Who waits after an event.** -/
theorem react_queue (P : Drivers τ) {m : Machine τ} {e : Event τ} (hadmits : m.admits e = true)
    {key : Key} {p' : Waiter} (h : (key, p') ∈ (m.react P e).2.waiters) :
    m.Queued e (m.react P e).1 key p' := by
  rcases hpass : m.pass? e with _ | ⟨m₀, key', a⟩
  case some =>
    rw [react_of_pass? P hpass] at h ⊢
    exact queued_of_pass P hpass h
  case none =>
    refine queued_of_stays hpass h ?_
    clear h
    cases e with
    | acquire key' who =>
      exact nomatch hpass.symm.trans (pass?_acquire hadmits)
    | resume key' =>
      obtain ⟨o, e, -⟩ := resume_of_pass?_eq_none P hpass
      rw [react, e]
      exact stays_of_subset (List.Subset.refl _)
    | abandon key' => exact stays_of_subset List.filter_sublist.subset
    | release key' =>
      show ∀ x ∈ (m.release P key').waiters, _
      rcases m.release_cases P key' with ⟨-, e⟩ | ⟨hd, -, e⟩
      · rw [e]
        exact stays_of_subset (List.Subset.refl _)
      · rw [e]
        exact stays_of_wakeAll fun _ hx => hx
    | use key' call =>
      show ∀ x ∈ (m.use P key' call).2.waiters, _
      rcases m.use_cases P key' call with ⟨-, e⟩ | ⟨hd, -, -, e⟩ | ⟨hd, o, -, -, e, -⟩
      all_goals
        rw [e]
        exact stays_of_subset (List.Subset.refl _)
    | reconfigure change => exact stays_of_wakeAll fun _ hx => hx
    | setTolerance n => exact stays_of_subset (List.Subset.refl _)
    | shutDown key' =>
      show ∀ x ∈ (m.shutDown P key').2.waiters, _
      rw [shutDown, lookAt_waiters]
      exact stays_of_wakeAll fun _ hx => hx
    | look key' =>
      show ∀ x ∈ (m.look P key').2.waiters, _
      rcases m.look_cases P key' with ⟨o, e, -⟩ | ⟨d, -, e⟩
      · rw [e]
        exact stays_of_subset (List.Subset.refl _)
      · rw [e, lookAt_waiters]
        exact stays_of_subset (List.Subset.refl _)
    | advance d => exact stays_of_subset (List.Subset.refl _)
    | disturb change => exact stays_of_subset (List.Subset.refl _)
    | letGo => exact stays_of_subset (List.Subset.refl _)

theorem observe_queue (D : Drivers σ) {m : Machine (Observed σ)} {e : Event σ} {key : Key}
    {p' : Waiter} (h : (key, p') ∈ (m.observe D e).2.waiters) :
    m.Queued e (m.observe D e).1 key p' := by
  unfold observe stepAs at h ⊢
  split at h
  case isFalse hnot =>
    rw [if_neg hnot]
    refine .stayed h (Waiter.Stays.refl _) fun m₀ a he => ?_
    -- an event that does not happen makes no pass
    rcases pass?_cases he with ⟨who, rfl, hadmits, -⟩ | ⟨rfl, -⟩
    · exact hnot hadmits
    · exact hnot rfl
  case isTrue hadmits =>
    rw [if_pos hadmits]
    rw [show (key, p') ∈ ((m.react (e.observed.view (D.observed .pool) (D.observed .holder))
      e.observed).2.settle (D.observed .pool)).waiters ↔ _ from by rw [settle_waiters]] at h
    cases react_queue _ hadmits h with
    | stayed old stays passes =>
      exact .stayed old stays fun m₀ a => by
        rw [← pass?_observed]
        exact passes m₀ a
    | parked passes waiting parks =>
      rw [pass?_observed] at passes
      exact .parked passes waiting parks

/-! ## Who goes on waiting -/

theorem pass_keeps_waits (P : Drivers τ) {m : Machine τ} {key : Key} (h : m.Waits key) (key' : Key)
    (a : Acquisition) : (m.pass P key' a).2.Waits key := by
  rcases m.pass_cases P key' a with ⟨-, e⟩ | ⟨-, budget, ⟨hd, w, -, e⟩ | ⟨err, w, -, e⟩ |
    ⟨r, w, f, -, e⟩ | ⟨w, -, e⟩⟩
  · rw [e]
    exact h
  · rw [e]
    exact h
  · rw [e]
    exact h
  · rw [e]
    show key ∈ (m.waiters ++ _).map _
    rw [List.map_append]
    exact List.mem_append_left _ h
  · rw [e]
    exact h

theorem waits_wakeAll {m : Machine τ} {key : Key} : m.wakeAll.Waits key ↔ m.Waits key := by
  show key ∈ (m.waiters.map _).map _ ↔ _
  rw [List.map_map]
  exact Iff.rfl

theorem waits_without {m : Machine τ} {key key' : Key} (hne : key ≠ key') :
    key ∈ (without key' m.waiters).map (·.1) ↔ m.Waits key := by
  constructor
  · intro h
    obtain ⟨x, hx, rfl⟩ := List.mem_map.1 h
    exact List.mem_map_of_mem (List.mem_of_mem_filter hx)
  · intro h
    obtain ⟨x, hx, rfl⟩ := List.mem_map.1 h
    exact List.mem_map_of_mem (List.mem_filter.2 ⟨hx, by simpa using hne⟩)

/-- Nobody stops waiting but by going on or being given up. -/
theorem react_keeps_waits (P : Drivers τ) {m : Machine τ} {key : Key} (h : m.Waits key) {e : Event τ}
    (hresume : e ≠ .resume key) (habandon : e ≠ .abandon key) : (m.react P e).2.Waits key := by
  cases e with
  | acquire key' who => exact pass_keeps_waits P h key' _
  | resume key' =>
    have hne : key ≠ key' := fun he => hresume (he ▸ rfl)
    show (m.resume P key').2.Waits key
    rcases m.resume_cases P key' with ⟨o, e, -⟩ | ⟨p, f, -, e⟩
    · rw [e]
      exact h
    · rw [e]
      exact pass_keeps_waits P (m := { m with
        waiters := without key' m.waiters
        world := m.world.onPool (·.count f) }) ((waits_without hne).2 h) key' _
  | abandon key' =>
    have hne : key ≠ key' := fun he => habandon (he ▸ rfl)
    exact (waits_without hne).2 h
  | release key' =>
    show (m.release P key').Waits key
    rcases m.release_cases P key' with ⟨-, e⟩ | ⟨hd, -, e⟩
    · rw [e]
      exact h
    · rw [e]
      exact waits_wakeAll.2 h
  | use key' call =>
    show (m.use P key' call).2.Waits key
    rcases m.use_cases P key' call with ⟨-, e⟩ | ⟨hd, -, -, e⟩ | ⟨hd, o, -, -, e, -⟩
    all_goals
      rw [e]
      exact h
  | reconfigure change => exact waits_wakeAll.2 h
  | setTolerance n => exact h
  | shutDown key' =>
    show (m.shutDown P key').2.Waits key
    rw [shutDown, Waits, lookAt_waiters]
    exact waits_wakeAll.2 h
  | look key' =>
    show (m.look P key').2.Waits key
    rcases m.look_cases P key' with ⟨o, e, -⟩ | ⟨d, -, e⟩
    · rw [e]
      exact h
    · rw [e, Waits, lookAt_waiters]
      exact h
  | advance d => exact h
  | disturb change => exact h
  | letGo => exact h

theorem observe_keeps_waits (D : Drivers σ) {m : Machine (Observed σ)} {key : Key}
    (h : m.Waits key) {e : Event σ} (hresume : e ≠ .resume key) (habandon : e ≠ .abandon key) :
    (m.observe D e).2.Waits key := by
  unfold observe stepAs
  split
  case isFalse => exact h
  case isTrue =>
    show key ∈ ((m.react _ e.observed).2.settle _).waiters.map _
    rw [settle_waiters]
    refine react_keeps_waits _ h ?_ ?_
    · cases e with
      | resume key' => exact fun he => hresume (congrArg Event.resume (Event.resume.inj he))
      | _ => exact nofun
    · cases e with
      | abandon key' => exact fun he => habandon (congrArg Event.abandon (Event.abandon.inj he))
      | _ => exact nofun

/-! ## Having waited -/

/-- Whoever waits is known to have waited. -/
def AllWaited (m : Machine τ) : Prop :=
  ∀ key p, (key, p) ∈ m.waiters → p.acquisition.waited = true

theorem observe_allWaited (D : Drivers σ) {m : Machine (Observed σ)} (e : Event σ)
    (h : m.AllWaited) : (m.observe D e).2.AllWaited := by
  intro key p' hp'
  cases observe_queue D hp' with
  | stayed old stays _ =>
    rw [stays.acquisition]
    exact h _ _ old
  | parked _ _ parks => exact parks.waited

/-! ## Since when somebody waits -/

section Runs

variable (D : Drivers σ) (source : Source) (config : PoolConfig) (s : σ)

theorem allWaited_reached (es : List (Event σ)) : (reached D source config s es).AllWaited :=
  observeAll_rule D source config s es (J := fun _ m => m.AllWaited) (fun _ _ h => nomatch h)
    fun _ _ e _ h => observe_allWaited D e h

/-- The acquisition that waits under a key began to wait with the event `e`, which came after the events
    `past`; none of the events `later` made a pass for it. -/
structure Parked (past : List (Event σ)) (e : Event σ) (later : List (Event σ)) (key : Key) :
    Prop where
  passes : ∃ m₀ a, (reached D source config s past).pass? e = some (m₀, key, a)
  waiting : ((reached D source config s past).observe D e).1 = .waiting
  last : ∀ done e' rest, later = done ++ e' :: rest → ∀ m₀ a,
    (reached D source config s (past ++ e :: done)).pass? e' ≠ some (m₀, key, a)

variable {D source config s}

theorem Parked.concat {past later : List (Event σ)} {e e' : Event σ} {key : Key}
    (h : Parked D source config s past e later key)
    (hpass : ∀ m₀ a, (reached D source config s (past ++ e :: later)).pass? e' ≠ some (m₀, key, a)) :
    Parked D source config s past e (later ++ [e']) key where
  passes := h.passes
  waiting := h.waiting
  last done e'' rest he := by
    rcases List.eq_nil_or_concat rest with rfl | ⟨rest, e₁, rfl⟩
    · obtain ⟨rfl, hlast⟩ := List.append_inj' he rfl
      obtain rfl := List.singleton_inj.1 hlast
      exact hpass
    · rw [List.concat_eq_append, ← List.cons_append, ← List.append_assoc] at he
      exact h.last done e'' rest (List.append_inj' he rfl).1

/-- **Whoever waits, waits since the last pass that was made for it.** -/
theorem parked_of_waits (es : List (Event σ)) {key : Key} {p : Waiter}
    (h : (key, p) ∈ (reached D source config s es).waiters) :
    ∃ past e later, es = past ++ e :: later ∧ Parked D source config s past e later key ∧
      p.since = (reached D source config s past).world.now := by
  induction es using List.reverseRecOn generalizing p with
  | nil => nomatch h
  | append_singleton es e ih =>
    rw [reached_concat] at h
    cases observe_queue D h with
    | stayed old stays passes =>
      obtain ⟨past, e₀, later, rfl, hparked, hsince⟩ := ih old
      exact ⟨past, e₀, later ++ [e], by simp, hparked.concat passes, stays.since.trans hsince⟩
    | parked passes waiting parks =>
      exact ⟨es, e, [], rfl, ⟨⟨_, _, passes⟩, waiting, fun done e' rest he => by simp at he⟩,
        parks.since⟩

/-- **Whoever waits began once**, at the time that it remembers. -/
theorem startedAt_of_waits (es : List (Event σ)) {key : Key} {p : Waiter}
    (h : (key, p) ∈ (reached D source config s es).waiters) :
    ∃ who past, Begun D source config s es key who past ∧
      p.acquisition.startedAt = (reached D source config s past).world.now := by
  induction es using List.reverseRecOn generalizing p with
  | nil => nomatch h
  | append_singleton es e ih =>
    have hwaits := waits_of_mem h
    rw [reached_concat] at h
    cases observe_queue D h with
    | stayed old stays _ =>
      obtain ⟨who, past, hbegun, hstarted⟩ := ih old
      exact ⟨who, past, hbegun.concat hwaits,
        (congrArg Acquisition.startedAt stays.acquisition).trans hstarted⟩
    | parked passes _ parks =>
      rcases pass?_cases passes with ⟨who, rfl, hadmits, -, rfl⟩ | ⟨rfl, p₀, hp₀, -, -, rfl⟩
      · refine ⟨who, es, ⟨hadmits, [], rfl, fun done hdone => ?_⟩, parks.startedAt⟩
        rw [List.prefix_nil.1 hdone]
        exact hwaits
      · obtain ⟨who, past, hbegun, hstarted⟩ := ih (mem_of_lookup hp₀)
        exact ⟨who, past, hbegun.concat hwaits, parks.startedAt.trans hstarted⟩

/-- Who waits had to wait from the beginning. -/
theorem Begun.waiting {es : List (Event σ)} {key : Key} {who : Option Credentials}
    {past : List (Event σ)} (h : Begun D source config s es key who past) :
    ((reached D source config s past).observe D (.acquire key who)).1 = .waiting := by
  obtain ⟨rest, -, hwaits⟩ := h.waits
  have hnow := hwaits [] (List.nil_prefix)
  rw [reached_concat] at hnow
  obtain ⟨⟨key', p⟩, hp, rfl⟩ := List.mem_map.1 hnow
  cases observe_queue D hp with
  | stayed old _ _ => exact absurd (waits_of_mem old) (not_waits_of_admits h.admitted)
  | parked _ waiting _ => exact waiting

/-- The time that a pass takes for the beginning of its acquisition is the time at which the acquisition
    began. -/
theorem startedAt_of_serves {es : List (Event σ)} {e : Event σ} {key : Key}
    {who : Option Credentials} {past : List (Event σ)}
    (h : Serves D source config s es e key who past) {m₀ : Machine (Observed σ)} {a : Acquisition}
    (hpass : (reached D source config s es).pass? e = some (m₀, key, a)) :
    a.startedAt = (reached D source config s past).world.now := by
  rcases pass?_cases hpass with ⟨who', rfl, -, -, rfl⟩ | ⟨rfl, p, hp, -, -, rfl⟩
  · rcases h with ⟨-, rfl⟩ | ⟨he, -⟩
    · rfl
    · nomatch he
  · rcases h with ⟨he, -⟩ | ⟨-, hbegun⟩
    · nomatch he
    · obtain ⟨who', past', hbegun', hstarted⟩ := startedAt_of_waits es (mem_of_lookup hp)
      obtain ⟨-, rfl⟩ := hbegun.unique hbegun'
      exact hstarted

end Runs

end Machine

end ConnPool
