/-
  Shutting a pool down is final.

  A shutdown closes the pool for acquisitions at once and then waits for the connections that are out.
  Nothing opens it again (`closed_from`), so whatever happens afterwards: nothing is handed out, those
  who wait are cancelled when they go on, those who come are refused, and the active list only loses
  connections.

  A look ends a shutdown when nothing is out any more, or when the time is up (`lookAt_ends`).  Then all
  that is left is closed.  Only what is out can come back to the idle list, and nothing is out: so both
  lists stay empty (`observe_empty_of_closed`).

  How long a shutdown has waited is read off the run: `Draining` finds the event that it began with.  Its
  deadline is one that the clock can show, as `Machine.shutDown` says.
-/
import ConnPool.Proofs.Belonging
import ConnPool.Proofs.Queue
import ConnPool.Proofs.Wakeup

namespace ConnPool

variable {σ τ : Type}

namespace Machine

/-! ## A pool that is shut down -/

/-- A pass on a pool that is shut down is refused, and changes nothing. -/
theorem pass_of_closed (P : Drivers τ) {m : Machine τ} (h : m.world.pool.closed = true) (key : Key)
    (a : Acquisition) :
    m.pass P key a = (.refused (if a.waited then .cancelled else .closed), m) := by
  simp only [pass, h, if_true]

section Closed

variable (D : Drivers σ) {m : Machine (Observed σ)}

/-- Whoever comes to a pool that is shut down is told so. -/
theorem observe_acquire_of_closed (h : m.world.pool.closed = true) {key : Key}
    {who : Option Credentials} (hadmits : m.admits (.acquire key who) = true) :
    m.observe D (.acquire key who) = (.refused .closed, m) := by
  have hheld : m.held = true := by
    simp only [admits, Bool.and_eq_true] at hadmits
    exact hadmits.1
  have hsettle : m.settle (D.observed .pool) = m := by simp [settle, unused, hheld]
  rw [observe_of_pass? D (pass?_acquire hadmits), pass_of_closed _ h, hsettle]
  rfl

/-- Whoever waits for a pool that is shut down is cancelled as soon as it goes on. -/
theorem observe_resume_of_closed (halert : Alert m) (hwaited : m.AllWaited)
    (h : m.world.pool.closed = true) {key : Key} (hwaits : m.Waits key) :
    (m.observe D (.resume key)).1 = .refused .cancelled ∧
      ¬ (m.observe D (.resume key)).2.Waits key := by
  obtain ⟨p, hp⟩ : ∃ p, m.waiter? key = some p := by
    cases hk : m.waiter? key with
    | some p => exact ⟨p, rfl⟩
    | none =>
      obtain ⟨⟨key', p⟩, hp, rfl⟩ := List.mem_map.1 hwaits
      have := List.lookup_eq_none_iff.1 hk _ hp
      simp at this
  have hmem := mem_of_lookup hp
  -- the shutdown has woken it
  have hwoken : p.woken = true := by
    have hsleeps := List.filter_eq_nil_iff.1 (halert.woken h) _ hmem
    simpa using hsleeps
  have hpass : m.pass? (.resume key : Event σ) = some (m.recalled key p, key, p.acquisition) := by
    simp only [pass?, hp, Waiter.due, hwoken, Bool.true_or, if_true]
  have hclosed : (m.recalled key p).world.pool.closed = true := h
  rw [observe_of_pass? D hpass, pass_of_closed _ hclosed]
  refine ⟨by rw [hwaited key p hmem]; rfl, fun hstill => ?_⟩
  rw [Waits, settle_waiters] at hstill
  obtain ⟨x, hx, hkey⟩ := List.mem_map.1 hstill
  have hne := (List.mem_filter.1 hx).2
  simp [hkey] at hne

/-- A pool that is shut down hands nothing out, and nothing joins the active list. -/
theorem observe_of_closed (h : m.world.pool.closed = true) (e : Event σ) :
    (∀ hd, (m.observe D e).1 ≠ .acquired hd) ∧
      (m.observe D e).2.world.pool.active ⊆ m.world.pool.active := by
  have hout : ∀ hd, (m.observe D e).1 ≠ .acquired hd := by
    intro hd ho
    obtain ⟨⟨m₀, key, a⟩, hpass⟩ := pass?_of_acquired D ho
    have hclosed : m₀.world.pool.closed = true := by
      rcases pass?_cases hpass with ⟨who, -, -, rfl, -⟩ | ⟨-, p, -, -, rfl, -⟩ <;> exact h
    rw [observe_of_pass? D hpass, pass_of_closed _ hclosed] at ho
    nomatch ho
  refine ⟨hout, ?_⟩
  rcases stepAs_hands (D.observed .pool) (D.observed .holder) m e.observed with
    ⟨-, hages, -⟩ | ⟨key, hd, ho, -, -⟩
  · exact hages.active
  · exact absurd ho (hout hd)

/-- Once a pool that is shut down has no connections it gets none again. -/
theorem observe_empty_of_closed (h : m.world.pool.closed = true) (hempty : m.world.pool.wrappers = [])
    (hfits : m.world.pool.Fits) (e : Event σ) : (m.observe D e).2.world.pool.wrappers = [] := by
  rcases observe_carries D e hfits with hcarries | hemptied
  · obtain ⟨hactive, hidle⟩ := List.append_eq_nil_iff.1 hempty
    have hgains := (observe_of_closed D h e).2
    rw [hactive] at hgains
    refine List.append_eq_nil_iff.2 ⟨List.subset_nil.1 hgains, List.eq_nil_iff_forall_not_mem.2 ?_⟩
    intro c hc
    -- what comes back was out
    rcases hcarries.idle c hc with hold | ⟨c', hout, -⟩
    · exact absurd (hidle ▸ hold) List.not_mem_nil
    · exact absurd (hactive ▸ hout) List.not_mem_nil
  · exact hemptied.wrappers

theorem observe_closed (h : m.world.pool.closed = true) (e : Event σ) :
    (m.observe D e).2.world.pool.closed = true :=
  observe_kept (World.closed_kept (D.observed .pool) (D.observed .holder)) (fun _ _ hw => hw) m e h

/-- A shutdown closes the pool. -/
theorem observe_shutDown_closed {key : Key} (hadmits : m.admits (.shutDown key) = true) :
    (m.observe D (.shutDown key)).2.world.pool.closed = true := by
  have hstep : m.observe D (.shutDown key) = ((m.shutDown (D.observed .pool) key).1,
      (m.shutDown (D.observed .pool) key).2.settle (D.observed .pool)) := if_pos hadmits
  rw [hstep]
  refine settle_kept (World.closed_kept (D.observed .pool) (D.observed .holder)).toKeptBetween _ ?_
  exact (lookAt_sleepers _ _ key _).2

end Closed

/-! ## The end of a shutdown -/

/-- A shutdown is over when nothing is out, or when its time is up; it tells how many were out, and
    throws all away. -/
theorem lookAt_ends (P : Drivers τ) {m : Machine τ} {key : Key} {deadline : Instant} {n : Nat}
    (h : (m.lookAt P key deadline).1 = .shutDown n) :
    n = m.world.pool.active.length ∧ (0 < n → deadline ≤ m.world.now) ∧
      (m.lookAt P key deadline).2 = m.onWorld (·.invalidateAll P) := by
  unfold lookAt at h ⊢
  by_cases hover : m.world.pool.active.length = 0 ∨ deadline ≤ m.world.now
  · simp only [if_pos hover] at h ⊢
    obtain rfl := Outcome.shutDown.inj h
    exact ⟨rfl, fun hsome => hover.resolve_left (Nat.ne_of_gt hsome), trivial⟩
  · simp only [if_neg hover] at h
    nomatch h

/-- Nothing but a shutdown or one of its looks ends a shutdown. -/
theorem eq_of_react_shutDown (D : Drivers τ) {m : Machine τ} {e : Event τ} {n : Nat}
    (h : (m.react D e).1 = .shutDown n) : (∃ key, e = .shutDown key) ∨ ∃ key, e = .look key := by
  have hpass : ∀ (m : Machine τ) key a, (m.pass D key a).1 ≠ .shutDown n := by
    intro m key a
    rcases m.pass_cases D key a with ⟨-, e⟩ | ⟨-, budget, ⟨hd, w, -, e⟩ | ⟨err, w, -, e⟩ |
      ⟨r, w, f, -, e⟩ | ⟨w, -, e⟩⟩
    all_goals
      rw [e]
      simp
  cases e with
  | shutDown key => exact Or.inl ⟨key, rfl⟩
  | look key => exact Or.inr ⟨key, rfl⟩
  | acquire key who => exact absurd h (hpass m key _)
  | resume key =>
    rcases hp : m.pass? (.resume key : Event τ) with _ | ⟨m₀, key', a⟩
    · obtain ⟨o, e, ho⟩ := resume_of_pass?_eq_none D hp
      rw [react, e] at h
      rcases ho with rfl | rfl <;> cases h
    · rw [react_of_pass? D hp] at h
      exact absurd h (hpass m₀ key' a)
  | use key call =>
    have hout : (m.use D key call).1 = .shutDown n := h
    unfold use at hout
    split at hout
    · cases hout
    · split at hout
      · split at hout <;> cases hout
      · cases hout
  | _ => cases h

/-- A look that ends a shutdown is the look of one that drains. -/
theorem look_of_shutDown (D : Drivers τ) {m : Machine τ} {key : Key} {n : Nat}
    (h : (m.look D key).1 = .shutDown n) : ∃ d, m.drain? key = some d ∧
      m.look D key = ({ m with drains := without key m.drains }).lookAt D key d.deadline := by
  unfold look at h ⊢
  cases hk : m.drain? key with
  | none =>
    simp only [hk] at h
    nomatch h
  | some d =>
    by_cases hd : d.nextLook ≤ m.world.now
    · exact ⟨d, rfl, by simp only [if_pos hd]⟩
    · simp only [hk, if_neg hd] at h
      nomatch h

/-- When a shutdown looks last. -/
inductive LooksLast (m : Machine τ) (n : Nat) : Event σ → Prop
  | atOnce {key : Key} (admits : m.admits (.shutDown key) = true)
      (timedOut : 0 < n → m.world.now + m.world.pool.config.drainTimeout ≤ m.world.now) :
      LooksLast m n (.shutDown key)
  | later {key : Key} {d : Drain} (drains : (key, d) ∈ m.drains)
      (timedOut : 0 < n → d.deadline ≤ m.world.now) : LooksLast m n (.look key)

/-- What a machine settles in that has no connections has none either. -/
theorem settle_wrappers_nil (P : Drivers τ) {m : Machine τ} (h : m.world.pool.wrappers = []) :
    (m.settle P).world.pool.wrappers = [] := by
  rcases m.settle_cases P with e | ⟨-, e⟩
  · rw [e]
    exact h
  · rw [e]
    exact (emptied_invalidateAll P m).wrappers

/-- **When a shutdown is over.** -/
theorem observe_ends (D : Drivers σ) {m : Machine (Observed σ)} {e : Event σ} {n : Nat}
    (h : (m.observe D e).1 = .shutDown n) :
    n = m.world.pool.active.length ∧ (m.observe D e).2.world.pool.wrappers = [] ∧
      m.LooksLast n e := by
  by_cases hadmits : m.admits e.observed = true
  · have hstep : m.observe D e =
        ((m.react (e.observed.view (D.observed .pool) (D.observed .holder)) e.observed).1,
          (m.react (e.observed.view (D.observed .pool) (D.observed .holder)) e.observed).2.settle
            (D.observed .pool)) := if_pos hadmits
    rw [hstep] at h ⊢
    rcases eq_of_react_shutDown _ h with ⟨key, he⟩ | ⟨key, he⟩
    · obtain rfl : e = .shutDown key := by
        cases e with
        | shutDown _ => exact congrArg Event.shutDown (Event.shutDown.inj he)
        | _ => nomatch he
      obtain ⟨hn, htime, hafter⟩ := lookAt_ends _ h
      refine ⟨hn, settle_wrappers_nil _ ?_, .atOnce hadmits htime⟩
      exact (congrArg (·.world.pool.wrappers) hafter).trans (emptied_invalidateAll _ _).wrappers
    · obtain rfl : e = .look key := by
        cases e with
        | look _ => exact congrArg Event.look (Event.look.inj he)
        | _ => nomatch he
      obtain ⟨d, hd, hlook⟩ := look_of_shutDown (D.observed .pool) (show _ = Outcome.shutDown n from h)
      have hout : (m.look (D.observed .pool) key).1 = .shutDown n := h
      rw [hlook] at hout
      obtain ⟨hn, htime, hafter⟩ := lookAt_ends _ hout
      refine ⟨hn, settle_wrappers_nil _ ?_, .later (mem_of_lookup hd) htime⟩
      show (m.look (D.observed .pool) key).2.world.pool.wrappers = []
      rw [hlook, hafter]
      exact (emptied_invalidateAll _ _).wrappers
  · have hstep : m.observe D e = (.nothing, m) := if_neg hadmits
    rw [hstep] at h
    nomatch h

/-! ## Since when a shutdown waits -/

/-- A shutdown waits under the key. -/
def Drains (m : Machine τ) (key : Key) : Prop :=
  key ∈ m.drains.map (·.1)

theorem lookAt_drains (P : Drivers τ) (m : Machine τ) (key : Key) (deadline : Instant) {key' : Key}
    {d' : Drain} (h : (key', d') ∈ (m.lookAt P key deadline).2.drains) :
    (key', d') ∈ m.drains ∨ key' = key ∧ d'.deadline = deadline := by
  unfold lookAt at h
  dsimp only at h
  split at h
  · exact Or.inl h
  · rcases List.mem_append.1 h with h | h
    · exact Or.inl h
    · obtain ⟨rfl, rfl⟩ := Prod.mk.inj (List.mem_singleton.1 h)
      exact Or.inr ⟨rfl, rfl⟩

/-- A shutdown that waits after an event began with it, or waited before with the same deadline. -/
theorem react_drains_mem (P : Drivers τ) {m : Machine τ} {e : Event τ} {key : Key} {d' : Drain}
    (h : (key, d') ∈ (m.react P e).2.drains) :
    (∃ d, (key, d) ∈ m.drains ∧ d'.deadline = d.deadline) ∨
    (e = .shutDown key ∧ d'.deadline = m.world.now + m.world.pool.config.drainTimeout) := by
  cases e with
  | acquire key' who =>
    rw [react, acquire, pass_drains] at h
    exact Or.inl ⟨d', h, rfl⟩
  | resume key' =>
    rcases m.resume_cases P key' with ⟨o, e, -⟩ | ⟨p, f, -, e⟩
    · rw [react, e] at h
      exact Or.inl ⟨d', h, rfl⟩
    · rw [react, e, pass_drains] at h
      exact Or.inl ⟨d', h, rfl⟩
  | abandon key' => exact Or.inl ⟨d', List.mem_of_mem_filter h, rfl⟩
  | release key' =>
    rcases m.release_cases P key' with ⟨-, e⟩ | ⟨hd, -, e⟩
    all_goals
      rw [react, e] at h
      exact Or.inl ⟨d', h, rfl⟩
  | use key' call =>
    rcases m.use_cases P key' call with ⟨-, e⟩ | ⟨hd, -, -, e⟩ | ⟨hd, o, -, -, e, -⟩
    all_goals
      rw [react, e] at h
      exact Or.inl ⟨d', h, rfl⟩
  | shutDown key' =>
    rcases lookAt_drains P _ key' _ h with h | ⟨rfl, hdeadline⟩
    · exact Or.inl ⟨d', h, rfl⟩
    · exact Or.inr ⟨rfl, hdeadline⟩
  | look key' =>
    rcases m.look_cases P key' with ⟨o, e, -⟩ | ⟨d, hd, e⟩
    · rw [react, e] at h
      exact Or.inl ⟨d', h, rfl⟩
    · rw [react, e] at h
      rcases lookAt_drains P _ key' _ h with h | ⟨rfl, hdeadline⟩
      · exact Or.inl ⟨d', List.mem_of_mem_filter h, rfl⟩
      · exact Or.inl ⟨d, mem_of_lookup hd, hdeadline⟩
  | _ => exact Or.inl ⟨d', h, rfl⟩

theorem observe_drains (D : Drivers σ) {m : Machine (Observed σ)} {e : Event σ} {key : Key}
    {d' : Drain} (h : (key, d') ∈ (m.observe D e).2.drains) :
    (∃ d, (key, d) ∈ m.drains ∧ d'.deadline = d.deadline) ∨
    (e = .shutDown key ∧ m.admits (.shutDown key) = true ∧
      d'.deadline = m.world.now + m.world.pool.config.drainTimeout) := by
  unfold observe stepAs at h
  split at h
  case isFalse => exact Or.inl ⟨d', h, rfl⟩
  case isTrue hadmits =>
    rw [show (key, d') ∈ ((m.react (e.observed.view (D.observed .pool) (D.observed .holder))
      e.observed).2.settle (D.observed .pool)).drains ↔ _ from by rw [settle_drains]] at h
    rcases react_drains_mem _ h with hold | ⟨he, hdeadline⟩
    · exact Or.inl hold
    · refine Or.inr ⟨?_, he ▸ hadmits, hdeadline⟩
      cases e with
      | shutDown _ => exact congrArg Event.shutDown (Event.shutDown.inj he)
      | _ => nomatch he

section Runs

variable (D : Drivers σ) (source : Source) (config : PoolConfig) (s : σ)

/-- The shutdown that waits under a key after the events `es` began after the events `past`, and has
    waited ever since. -/
structure Draining (es : List (Event σ)) (key : Key) (past : List (Event σ)) : Prop where
  admitted : (reached D source config s past).admits (.shutDown key) = true
  drains : ∃ rest, es = past ++ .shutDown key :: rest ∧ ∀ done, done <+: rest →
    (reached D source config s (past ++ .shutDown key :: done)).Drains key

/-- When a shutdown that began after the events `past` gives up on those who do not return. -/
def deadlineOf (past : List (Event σ)) : Instant :=
  (reached D source config s past).world.now +
    (reached D source config s past).world.pool.config.drainTimeout

variable {D source config s}

/-- Every shutdown that waits began once, and waits until its time is up. -/
theorem draining_of_mem (es : List (Event σ)) {key : Key} {d : Drain}
    (h : (key, d) ∈ (reached D source config s es).drains) :
    ∃ past, Draining D source config s es key past ∧ d.deadline = deadlineOf D source config s past := by
  induction es using List.reverseRecOn generalizing d with
  | nil => nomatch h
  | append_singleton es e ih =>
    have hdrains : (reached D source config s (es ++ [e])).Drains key := List.mem_map_of_mem h
    rw [reached_concat] at h
    rcases observe_drains D h with ⟨d₀, hd₀, hdeadline⟩ | ⟨rfl, hadmits, hdeadline⟩
    · obtain ⟨past, hdraining, hpast⟩ := ih hd₀
      obtain ⟨rest, rfl, hrest⟩ := hdraining.drains
      refine ⟨past, ⟨hdraining.admitted, rest ++ [e], by simp, fun done hdone => ?_⟩,
        hdeadline.trans hpast⟩
      rcases List.prefix_concat_iff.1 hdone with rfl | hdone
      · simpa using hdrains
      · exact hrest done hdone
    · refine ⟨es, ⟨hadmits, [], rfl, fun done hdone => ?_⟩, hdeadline⟩
      rw [List.prefix_nil.1 hdone]
      exact hdrains

/-! ## After a shutdown -/

theorem alert_reached (es : List (Event σ)) : Alert (reached D source config s es) :=
  observeAll_rule D source config s es (J := fun _ m => Alert m) (alert_start source config _)
    fun _ _ e _ h => stepAs_alert _ _ e.observed h

/-- What is shut down stays so. -/
theorem closed_from {past : List (Event σ)} {key : Key}
    (h : (reached D source config s past).admits (.shutDown key) = true) (rest : List (Event σ)) :
    (reached D source config s (past ++ .shutDown key :: rest)).world.pool.closed = true := by
  induction rest using List.reverseRecOn with
  | nil =>
    rw [reached_concat]
    exact observe_shutDown_closed D h
  | append_singleton rest e ih =>
    rw [← List.cons_append, ← List.append_assoc, reached_concat]
    exact observe_closed D ih e

/-- What is empty and shut down stays empty. -/
theorem empty_from {es : List (Event σ)}
    (hclosed : (reached D source config s es).world.pool.closed = true)
    (hempty : (reached D source config s es).world.pool.wrappers = []) (later : List (Event σ)) :
    (reached D source config s (es ++ later)).world.pool.closed = true ∧
      (reached D source config s (es ++ later)).world.pool.wrappers = [] := by
  induction later using List.reverseRecOn with
  | nil => simpa using ⟨hclosed, hempty⟩
  | append_singleton later e ih =>
    rw [← List.append_assoc, reached_concat]
    exact ⟨observe_closed D ih.1 e,
      observe_empty_of_closed D ih.1 ih.2 (fits_reached D source config s _) e⟩

/-- An acquisition that waits when the pool is shut down waits on until it is cancelled, unless it is
    given up. -/
theorem waits_or_cancelled {past : List (Event σ)} {key k : Key}
    (h : (reached D source config s past).admits (.shutDown key) = true)
    (hwaits : (reached D source config s past).Waits k) (rest : List (Event σ))
    (hrest : ∀ e ∈ rest, e ≠ .abandon k) :
    (reached D source config s (past ++ .shutDown key :: rest)).Waits k ∨
    ∃ done, done ++ [.resume k] <+: rest ∧
      ((reached D source config s (past ++ .shutDown key :: done)).observe D (.resume k)).1 =
        .refused .cancelled := by
  induction rest using List.reverseRecOn with
  | nil =>
    refine Or.inl ?_
    rw [reached_concat]
    exact observe_keeps_waits D hwaits nofun nofun
  | append_singleton rest e ih =>
    have hbefore := ih fun e' he' => hrest e' (List.mem_append_left _ he')
    rcases hbefore with hstill | ⟨done, hdone, hout⟩
    · by_cases he : e = .resume k
      · subst he
        refine Or.inr ⟨rest, List.prefix_refl _, ?_⟩
        exact (observe_resume_of_closed D (alert_reached _) (allWaited_reached D source config s _)
          (closed_from h rest) hstill).1
      · refine Or.inl ?_
        rw [← List.cons_append, ← List.append_assoc, reached_concat]
        exact observe_keeps_waits D hstill he (hrest e (by simp))
    · exact Or.inr ⟨done, hdone.trans (List.prefix_append _ _), hout⟩

variable (D source config s)

/-- After the events `es`, an event is the last look of the shutdown that began after the events
    `past`. -/
def Concludes (es : List (Event σ)) (e : Event σ) (past : List (Event σ)) : Prop :=
  ∃ key, (e = .shutDown key ∧ past = es) ∨
    (e = .look key ∧ Draining D source config s es key past)

/-- After the events `es`, an event ended a shutdown, which returned `n`. -/
structure Over (es : List (Event σ)) (e : Event σ) (n : Nat) : Prop where
  /-- So many were out. -/
  counted : n = (reached D source config s es).world.pool.active.length
  /-- Some were only when the time was up. -/
  timedOut : 0 < n → ∃ past, Concludes D source config s es e past ∧
    deadlineOf D source config s past ≤ (reached D source config s es).world.now
  /-- No handle is valid any more. -/
  invalid : ∀ h ∈ handedOut (observeAll D source config s (es ++ [e])).1,
    h.id ∉ (reached D source config s (es ++ [e])).world.pool.valid
  /-- The pool has closed all that it opened. -/
  allClosed : ∀ conn ∈ openedIn (reached D source config s (es ++ [e])).log,
    conn ∈ closedIn (reached D source config s (es ++ [e])).log
  /-- Both lists are empty, and stay so. -/
  empty : ∀ later, (reached D source config s (es ++ e :: later)).world.pool.active = [] ∧
    (reached D source config s (es ++ e :: later)).world.pool.idle = []

/-- What holds after the events `rest` that follow a shutdown, which was called after `past`. -/
structure ShutDownFor (past : List (Event σ)) (key : Key) (rest es : List (Event σ)) : Prop where
  /-- Nothing is handed out. -/
  handsOut : ∀ e h, ((reached D source config s es).observe D e).1 ≠ .acquired h
  /-- Nothing is out that was not out before, nor when the shutdown began. -/
  gains : ∀ e, (reached D source config s (es ++ [e])).world.pool.active ⊆
    (reached D source config s es).world.pool.active
  active : (reached D source config s es).world.pool.active ⊆
    (reached D source config s past).world.pool.active
  /-- Whoever waited then, woken or not, and was not given up, still waits or was cancelled. -/
  parked : ∀ k, (reached D source config s past).Waits k → (∀ e ∈ rest, e ≠ .abandon k) →
    (reached D source config s es).Waits k ∨ ∃ done, done ++ [.resume k] <+: rest ∧
      ((reached D source config s (past ++ .shutDown key :: done)).observe D (.resume k)).1 =
        .refused .cancelled
  /-- Whoever waits is cancelled when it goes on, and does not wait any more. -/
  cancelled : ∀ k, (reached D source config s es).Waits k →
    ((reached D source config s es).observe D (.resume k)).1 = .refused .cancelled ∧
      ¬ (reached D source config s (es ++ [.resume k])).Waits k
  /-- Whoever comes is refused, and does not begin to wait. -/
  refused : ∀ k who, (reached D source config s es).admits (.acquire k who) = true →
    ((reached D source config s es).observe D (.acquire k who)).1 = .refused .closed ∧
      ¬ (reached D source config s (es ++ [.acquire k who])).Waits k
  /-- When a shutdown is over, this one or another, all is closed for good. -/
  ended : ∀ e n, ((reached D source config s es).observe D e).1 = .shutDown n →
    Over D source config s es e n

variable {D source config s}

/-- When a shutdown is over, all is closed for good. -/
theorem over_of_shutDown {es : List (Event σ)} {e : Event σ} {n : Nat}
    (hclosed : (reached D source config s (es ++ [e])).world.pool.closed = true)
    (h : ((reached D source config s es).observe D e).1 = .shutDown n) :
    Over D source config s es e n := by
  obtain ⟨hn, hempty, hlast⟩ := observe_ends D h
  rw [← reached_concat] at hempty
  constructor
  case counted => exact hn
  case timedOut =>
    intro hsome
    cases hlast with
    | @atOnce key _ timedOut => exact ⟨es, ⟨key, Or.inl ⟨rfl, rfl⟩⟩, timedOut hsome⟩
    | @later key d drains timedOut =>
      obtain ⟨past, hdraining, hdeadline⟩ := draining_of_mem es drains
      exact ⟨past, ⟨key, Or.inr ⟨rfl, hdraining⟩⟩, hdeadline ▸ timedOut hsome⟩
  case invalid =>
    intro hd _ hvalid
    have hroster := (owned_reached D source config s (es ++ [e])).roster
    rw [hroster.valid, hempty] at hvalid
    nomatch hvalid
  case allClosed =>
    intro conn hconn
    have haccounts := accounts_reached D source config s (es ++ [e])
    rw [hempty] at haccounts
    exact ((Accounted.places haccounts conn).1 hconn).resolve_left List.not_mem_nil
  case empty =>
    intro later
    have hlater := (empty_from hclosed hempty later).2
    rw [List.append_assoc, List.singleton_append] at hlater
    exact List.append_eq_nil_iff.1 hlater

/-- What is out after a shutdown was out when it began. -/
theorem active_from {past : List (Event σ)} {key : Key}
    (h : (reached D source config s past).admits (.shutDown key) = true) (rest : List (Event σ)) :
    (reached D source config s (past ++ .shutDown key :: rest)).world.pool.active ⊆
      (reached D source config s past).world.pool.active := by
  induction rest using List.reverseRecOn with
  | nil =>
    rw [reached_concat]
    rcases stepAs_hands (D.observed .pool) (D.observed .holder)
      (reached D source config s past) (.shutDown key) with ⟨-, hages, -⟩ | ⟨k, hd, ho, -, -⟩
    · exact hages.active
    · -- a shutdown is no pass
      obtain ⟨x, hx⟩ := pass?_of_acquired D (e := .shutDown key) ho
      cases hx
  | append_singleton rest e ih =>
    rw [← List.cons_append, ← List.append_assoc, reached_concat]
    exact List.Subset.trans (observe_of_closed D (closed_from h rest) e).2 ih

/-- **Shutdown is final.**  In every run in which a pool is shut down, whatever the drivers answer and
    whatever follows: nothing is handed out any more; those who waited are cancelled and those who come
    are refused; nothing joins the active list; and when a shutdown is over, at once or later, all is
    closed and both lists are empty for good. -/
theorem shutdown_is_final (D : Drivers σ) (source : Source) (config : PoolConfig) (s : σ)
    (past : List (Event σ)) (key : Key)
    (h : (reached D source config s past).admits (.shutDown key) = true) :
    (∀ n, ((reached D source config s past).observe D (.shutDown key)).1 = .shutDown n →
      Over D source config s past (.shutDown key) n) ∧
    ∀ rest, ShutDownFor D source config s past key rest (past ++ .shutDown key :: rest) := by
  refine ⟨fun n hn => over_of_shutDown (closed_from h []) hn, fun rest => ?_⟩
  have hclosed := closed_from h rest
  constructor
  case handsOut => exact fun e => (observe_of_closed D hclosed e).1
  case gains =>
    intro e
    rw [reached_concat]
    exact (observe_of_closed D hclosed e).2
  case active => exact active_from h rest
  case parked => exact fun k hwaits hrest => waits_or_cancelled h hwaits rest hrest
  case cancelled =>
    intro k hwaits
    rw [reached_concat]
    exact observe_resume_of_closed D (alert_reached _) (allWaited_reached D source config s _)
      hclosed hwaits
  case refused =>
    intro k who hadmits
    have hout := observe_acquire_of_closed D hclosed hadmits
    rw [reached_concat, hout]
    exact ⟨rfl, not_waits_of_admits hadmits⟩
  case ended =>
    intro e n hn
    refine over_of_shutDown ?_ hn
    rw [reached_concat]
    exact observe_closed D hclosed e

end Runs

/-! ## A run that ends in a shutdown -/

/-- One acquires, and another waits. -/
def parting : List (Event Bank) :=
  [.acquire 0 none, .acquire 1 none]

/-- The pool is shut down.  The one who waits is cancelled; the other returns its connection, and at
    the next look the shutdown is over. -/
theorem parting_is_final :
    (reached Bank.drivers target single [.scripted {}] parting).admits (.shutDown 2) = true ∧
    ((reached Bank.drivers target single [.scripted {}] (parting ++ [.shutDown 2])).observe
      Bank.drivers (.resume 1)).1 = .refused .cancelled ∧
    Over Bank.drivers target single [.scripted {}]
      (parting ++ [.shutDown 2, .release 0, .advance (.ofMillis 10)]) (.look 2) 0 := by
  have hadmits :
      (reached Bank.drivers target single [.scripted {}] parting).admits (.shutDown 2) = true := by
    decide +kernel
  have hfinal := (shutdown_is_final Bank.drivers target single [.scripted {}] parting 2 hadmits).2
  exact ⟨hadmits, ((hfinal []).cancelled 1 (by decide +kernel)).1,
    (hfinal [.release 0, .advance (.ofMillis 10)]).ended (.look 2) 0 (by decide +kernel)⟩

end Machine

end ConnPool
