/-
  Who only waits is not there.

  A pass that ends with a wait took nothing: a candidate that is found bad leaves room for another, so no
  pass that has found one has to wait (`tryOut_mustWait`).  What waiting leaves behind is an entry in the
  queue, and two counters.  The others do not see the entry, and nobody looks at the counters
  (`react_seen`).

  So an acquisition that only waits, and is given up or cancelled, may be left out of a run
  (`waiting_is_invisible`).  What the others do is then still the same, with one exception.  Who waits in
  an acquisition holds the pool for as long; if all others let the pool go in the meantime, its end comes
  when the wait is over, and this is when the pool is let go in the run without the acquisition
  (`others`).
-/
import ConnPool.Driver.Bank
import ConnPool.Proofs.Decision
import ConnPool.Proofs.Keys
import Mathlib.Data.List.Infix

namespace ConnPool

variable {σ τ α : Type}

/-! ## A pass that ends with a wait -/

/-- **A pass that has to wait has done nothing.** -/
theorem World.tryOut_mustWait (P : Drivers τ) {who : Credentials} {startedAt : Instant}
    {budget r r' : Nat} {w w' : World τ} (hfits : w.pool.Fits)
    (h : w.tryOut P who startedAt budget r = (.mustWait r', w')) : r' = r ∧ w' = w := by
  rcases w.tryOut_first P who startedAt budget r hfits with ⟨-, hdecision⟩ | ⟨e, w₁, -, ht⟩ | ⟨-, ht⟩
  · rw [h] at hdecision
    exact hdecision.elim
  · nomatch ht.symm.trans h
  · obtain ⟨hr, hw⟩ := Prod.mk.inj (ht.symm.trans h)
    exact ⟨(PassEnd.mustWait.inj hr).symm, hw.symm⟩

/-- No pass is cancelled that searches. -/
theorem World.tryOut_ne_cancelled (P : Drivers τ) (who : Credentials) (startedAt : Instant)
    (budget r : Nat) (w : World τ) :
    (w.tryOut P who startedAt budget r).1 ≠ .failed .cancelled := by
  refine tryOut_rule P (I := fun _ _ => True) (Q := fun e _ => e ≠ .failed .cancelled)
    (fun _ ht => ?_) (fun _ _ => nofun) (fun _ _ _ => nofun) (fun _ _ _ => trivial)
    (fun _ => nofun) (fun _ => nofun) budget r w trivial
  rcases takeCandidate_failed P ht with ⟨-, -, cause, s, -, rfl, -⟩ |
    ⟨-, -, -, ⟨detail, rfl⟩, -⟩
  all_goals exact nofun

/-- Whether the pool is let go. -/
def Event.isLetGo : Event τ → Bool
  | .letGo => true
  | _ => false

/-- Whether it is something that is done under other keys than this one by somebody who need not hold the
    pool. -/
def Event.isAside (key : Key) (e : Event τ) : Bool :=
  decide (e.key? ≠ some key) && !e.needsHolder

namespace Machine

/-- What the others see of a machine while somebody waits under the key: they do not see who waits, and
    the pool is held as long as it waits. -/
def hidden (key : Key) (m : Machine τ) : Machine τ :=
  m.seen (· == key) true {}

theorem counting_counting (k k' : Counters) (m : Machine τ) :
    (m.counting k).counting k' = m.counting (k + k') := by
  show Machine.mk (World.mk _ { m.world.pool with counters := m.world.pool.counters + k + k' } _)
    _ _ _ _ _ = _
  rw [Counters.add_assoc]
  rfl

/-- Nobody is hidden if nobody waits under the key, and the pool is held. -/
theorem hidden_of_absent {m : Machine τ} {key : Key} (hheld : m.held = true) (h : ¬ m.Waits key) :
    m.hidden key = m := by
  have hwaiters : m.waiters.filter (fun x => !(x.1 == key)) = m.waiters := by
    refine List.filter_eq_self.2 fun x hx => ?_
    have hne : x.1 ≠ key := fun he => h (he ▸ List.mem_map_of_mem hx)
    simpa using hne
  show Machine.mk (m.world.counting {}) (m.waiters.filter fun x => !(x.1 == key)) m.drains m.handles
    (m.held || true) m.gone = m
  rw [hwaiters, Bool.or_true, ← hheld]
  rfl

/-- What is counted when an acquisition has to wait. -/
def tallyOfWait (a : Acquisition) : Counters where
  hadToWait := if a.waited then 0 else 1

/-- **The others do not see that an acquisition has to wait**, but on a counter. -/
theorem pass_hidden (P : Drivers τ) {m : Machine τ} {key : Key} {a : Acquisition}
    (hfits : m.world.pool.Fits) (h : (m.pass P key a).1 = .waiting) :
    (m.pass P key a).2.hidden key = (m.hidden key).counting (tallyOfWait a) := by
  have hclosed : ¬ m.world.pool.closed = true := fun hc => by
    simp [pass, hc] at h
  rcases ht : m.world.tryOut P a.who a.startedAt (m.world.pool.config.badBudget - a.rejected)
    a.rejected with ⟨r, w⟩
  cases r with
  | handedOut hd => simp [pass, hclosed, ht] at h
  | failed e => simp [pass, hclosed, ht] at h
  | overflowed => simp [pass, hclosed, ht] at h
  | mustWait r =>
    obtain ⟨rfl, rfl⟩ := World.tryOut_mustWait P hfits ht
    have hgone : ∀ p : Waiter, (m.waiters ++ [(key, p)]).filter (fun x => !(x.1 == key)) =
        m.waiters.filter (fun x => !(x.1 == key)) := by
      intro p
      rw [List.filter_append, List.filter_cons_of_neg (by simp), List.filter_nil, List.append_nil]
    by_cases hwaited : a.waited = true
    · simp only [pass, if_neg hclosed, ht, hidden, seen, tallyOfWait, if_pos hwaited, hgone]
      rfl
    · simp only [pass, if_neg hclosed, ht, hidden, seen, tallyOfWait, if_neg hwaited, hgone]
      rfl

/-! ## One event -/

theorem key?_observed (e : Event σ) : e.observed.key? = e.key? := by
  cases e <;> rfl

theorem needsHolder_observed (e : Event σ) : e.observed.needsHolder = e.needsHolder := by
  cases e <;> rfl

theorem settle_of_held (P : Drivers τ) {m : Machine τ} (h : m.held = true) : m.settle P = m := by
  simp [settle, unused, h]

/-- The pool of a machine in which somebody waits has not come to its end. -/
theorem settle_of_waits (P : Drivers τ) {m : Machine τ} {key : Key} (h : m.Waits key) :
    m.settle P = m := by
  have hne : m.waiters.isEmpty = false := by
    obtain ⟨x, hx, -⟩ := List.mem_map.1 h
    exact List.isEmpty_eq_false_iff_exists_mem.2 ⟨x, hx⟩
  simp [settle, unused, hne]

theorem lookAt_holds (P : Drivers τ) (m : Machine τ) (key : Key) (deadline : Instant) :
    (m.lookAt P key deadline).2.held = m.held := by
  rcases m.lookAt_cases P key deadline with ⟨out, e⟩ | ⟨drain, e⟩
  · rw [e]
    rfl
  · rw [e]

theorem pass_holds (P : Drivers τ) (m : Machine τ) (key : Key) (a : Acquisition) :
    (m.pass P key a).2.held = m.held := by
  rcases m.pass_cases P key a with ⟨-, e⟩ | ⟨-, budget, ⟨h, w, -, e⟩ | ⟨err, w, -, e⟩ |
    ⟨r, w, f, -, e⟩ | ⟨w, -, e⟩⟩ <;> rw [e]

/-- The pool is held as before, unless it is let go. -/
theorem react_holds (P : Drivers τ) {m : Machine τ} {e : Event τ} (he : e ≠ .letGo) :
    (m.react P e).2.held = m.held := by
  cases e with
  | acquire key who => exact pass_holds P m key _
  | resume key =>
    show (m.resume P key).2.held = m.held
    rcases m.resume_cases P key with ⟨o, e, -⟩ | ⟨p, f, -, e⟩
    · rw [e]
    · rw [e]
      exact pass_holds P _ key _
  | release key =>
    show (m.release P key).held = m.held
    rcases m.release_cases P key with ⟨-, e⟩ | ⟨h, -, e⟩
    · rw [e]
    · rw [e]
      rfl
  | use key call =>
    show (m.use P key call).2.held = m.held
    rcases m.use_cases P key call with ⟨-, e⟩ | ⟨h, -, -, e⟩ | ⟨h, o, -, -, e, -⟩ <;> rw [e]
  | shutDown key => exact lookAt_holds P _ key _
  | look key =>
    show (m.look P key).2.held = m.held
    rcases m.look_cases P key with ⟨o, e, -⟩ | ⟨d, -, e⟩
    · rw [e]
    · rw [e]
      exact lookAt_holds P _ key _
  | letGo => exact absurd rfl he
  | _ => rfl

section Events

variable {D : Drivers σ} {m : Machine (Observed σ)} {e : Event σ} {key : Key}

/-- Somebody waits all along: the pool does not come to its end with the event. -/
theorem observe_of_waits (hadmits : m.admits e.observed = true)
    (hafter : (m.observe D e).2.Waits key) : m.observe D e =
      m.react (e.observed.view (D.observed .pool) (D.observed .holder)) e.observed := by
  simp only [observe, stepAs, hadmits, if_true] at hafter ⊢
  have hwaits : (m.react (e.observed.view (D.observed .pool) (D.observed .holder))
      e.observed).2.Waits key := by
    rw [Waits, settle_waiters] at hafter
    exact hafter
  rw [settle_of_waits _ hwaits]

theorem observe_holds (he : e ≠ .letGo) : (m.observe D e).2.held = m.held := by
  have hobserved : e.observed ≠ .letGo := by
    cases e with
    | letGo => exact absurd rfl he
    | _ => exact nofun
  unfold observe stepAs
  split
  case isFalse => rfl
  case isTrue =>
    dsimp only
    rcases settle_cases (D.observed .pool) (m.react (e.observed.view (D.observed .pool)
      (D.observed .holder)) e.observed).2 with hs | ⟨-, hs⟩
    · rw [hs]
      exact react_holds _ hobserved
    · rw [hs]
      exact react_holds _ hobserved

/-- **What somebody else does** it does without the one who waits, too. -/
theorem observe_hidden (hkey : e.key? ≠ some key) (hletGo : e ≠ .letGo)
    (hheld : m.held = true ∨ e.needsHolder = false) (hafter : (m.observe D e).2.Waits key) :
    (m.hidden key).observe D e = ((m.observe D e).1, (m.observe D e).2.hidden key) := by
  have hkeys : ∀ key', e.observed.key? = some key' → (key' == key) = false := by
    intro key' he
    rw [key?_observed] at he
    have hne : key' ≠ key := fun h => hkey (h ▸ he)
    simpa using hne
  have hadmits : (m.hidden key).admits e.observed = m.admits e.observed := by
    refine admits_seen {} m hkeys fun hneeds => ?_
    rw [needsHolder_observed] at hneeds
    rcases hheld with h | h
    · rw [h]
      rfl
    · rw [h] at hneeds
      nomatch hneeds
  have hobserved : e.observed ≠ .letGo := by
    cases e with
    | letGo => exact absurd rfl hletGo
    | _ => exact nofun
  by_cases ha : m.admits e.observed = true
  · have hreact : (m.hidden key).react (e.observed.view (D.observed .pool) (D.observed .holder))
        e.observed = _ := react_seen {} _ m hkeys fun he => absurd he hobserved
    rw [observe_of_waits ha hafter]
    simp only [observe, stepAs, hadmits, ha, if_true]
    rw [hreact]
    refine Prod.ext rfl (settle_of_held _ ?_)
    exact Bool.or_true _
  · simp only [observe, stepAs, hadmits, if_neg ha]

/-- What has a key of its own goes by no other. -/
theorem Keyed.only_waits (h : m.Keyed) (hwaits : m.Waits key) :
    m.drain? key = none ∧ m.handle? key = none ∧ m.isFree key = false := by
  have hapart := (List.nodup_append.1 h).2.2 key hwaits key
  refine ⟨?_, ?_, ?_⟩
  · exact lookup_eq_none_iff_not_mem.2 fun hmem => hapart (List.mem_append_left _ hmem) rfl
  · exact lookup_eq_none_iff_not_mem.2 fun hmem => hapart (List.mem_append_right _ hmem) rfl
  · rw [Bool.eq_false_iff]
    exact fun hfree => isFree_iff.1 hfree (List.mem_append_left _ hwaits)

theorem recalled_hidden {p : Waiter} : (m.recalled key p).hidden key =
    (m.hidden key).counting { waitTime := m.world.now - p.since } := by
  have hwaiters : (without key m.waiters).filter (fun x => !(x.1 == key)) =
      m.waiters.filter (fun x => !(x.1 == key)) := by
    rw [without, List.filter_filter]
    refine List.filter_congr fun x _ => ?_
    by_cases hx : x.1 = key <;> simp [hx]
  show Machine.mk _ ((without key m.waiters).filter fun x => !(x.1 == key)) _ _ _ _ = _
  rw [hwaiters]
  rfl

/-- An acquisition that goes on and has to wait again is not seen by the others, but on a counter. -/
theorem observe_own_resume (hfits : m.world.pool.Fits) (hwaited : m.AllWaited)
    (hafter : (m.observe D (.resume key)).2.Waits key) :
    ∃ t, (m.observe D (.resume key)).2.hidden key = (m.hidden key).counting { waitTime := t } := by
  have hevent := observe_of_waits rfl hafter
  rw [hevent] at hafter ⊢
  rcases hpass : m.pass? (.resume key : Event σ) with _ | ⟨m₀, key', a⟩
  · obtain ⟨o, e, -⟩ := resume_of_pass?_eq_none (D.observed .pool) hpass
    refine ⟨.zero, ?_⟩
    show (m.resume (D.observed .pool) key).2.hidden key = _
    rw [e]
    rfl
  · rw [react_observed_of_pass? D hpass] at hafter ⊢
    rcases pass?_cases hpass with ⟨who, he, -⟩ | ⟨he, p, hp, -, rfl, rfl⟩
    · cases he
    · obtain rfl := Event.resume.inj he
      obtain ⟨⟨key', p'⟩, hp', rfl⟩ := List.mem_map.1 hafter
      rcases pass_queue _ _ _ _ hp' with hold | ⟨-, hwaiting, -⟩
      · exact absurd (List.mem_map_of_mem hold) (not_mem_keys_without key' m.waiters)
      · refine ⟨m.world.now - p.since, ?_⟩
        have htally : tallyOfWait p.acquisition = {} := by
          rw [tallyOfWait, hwaited _ _ (mem_of_lookup hp)]
          rfl
        have hfits₀ : (m.recalled key' p).world.pool.Fits := ⟨hfits.idle, hfits.total⟩
        rw [pass_hidden _ hfits₀ hwaiting, htally, recalled_hidden]
        rfl

/-- **While it waits**, what an acquisition does is not seen by the others, but on a counter. -/
theorem observe_own (hfits : m.world.pool.Fits) (hkeyed : m.Keyed) (hwaited : m.AllWaited)
    (hkey : e.key? = some key) (hbefore : m.Waits key) (hafter : (m.observe D e).2.Waits key) :
    ∃ t, (m.observe D e).2.hidden key = (m.hidden key).counting { waitTime := t } := by
  obtain ⟨hdrain, hhandle, hfree⟩ := hkeyed.only_waits hbefore
  -- nothing is done under the key that does not belong to the acquisition
  have hnothing : (m.observe D e).2 = m →
      ∃ t, (m.observe D e).2.hidden key = (m.hidden key).counting { waitTime := t } :=
    fun h => ⟨.zero, by rw [h]; rfl⟩
  have hrefused : m.admits e.observed = false → (m.observe D e).2 = m := fun h => by
    simp [observe, stepAs, h]
  cases e with
  | acquire key' who =>
    obtain rfl := Option.some.inj hkey
    exact hnothing (hrefused (by simp [Event.observed, admits, hfree]))
  | shutDown key' =>
    obtain rfl := Option.some.inj hkey
    exact hnothing (hrefused (by simp [Event.observed, admits, hfree]))
  | abandon key' =>
    obtain rfl := Option.some.inj hkey
    rw [observe_of_waits rfl hafter] at hafter
    exact absurd hafter (not_mem_keys_without key' m.waiters)
  | release key' =>
    obtain rfl := Option.some.inj hkey
    refine hnothing ?_
    rw [observe_of_waits rfl hafter]
    show m.release _ key' = m
    simp only [release, hhandle]
  | use key' call =>
    obtain rfl := Option.some.inj hkey
    refine hnothing ?_
    rw [observe_of_waits rfl hafter]
    show (m.use _ key' call).2 = m
    simp only [use, hhandle]
  | look key' =>
    obtain rfl := Option.some.inj hkey
    refine hnothing ?_
    rw [observe_of_waits rfl hafter]
    show (m.look _ key').2 = m
    simp only [look, hdrain]
  | resume key' =>
    obtain rfl := Option.some.inj hkey
    exact observe_own_resume hfits hwaited hafter
  | _ => cases hkey

/-- The machine when the wait under the key is over. -/
def left (key : Key) (m : Machine τ) : Machine τ :=
  m.seen (· == key) false {}

theorem left_of_held {m : Machine τ} (h : m.held = true) : m.left key = m.hidden key := by
  simp only [left, hidden, seen, h, Bool.or_false, Bool.or_true]

theorem without_eq (l : List (Key × α)) : without key l = l.filter (fun x => !(x.1 == key)) := by
  rw [without]
  refine List.filter_congr fun x _ => ?_
  by_cases hx : x.1 = key <;> simp [hx]

theorem recalled_left {p : Waiter} : m.recalled key p =
    (m.left key).counting { waitTime := m.world.now - p.since } := by
  show Machine.mk _ (without key m.waiters) _ _ _ _ =
    Machine.mk _ (m.waiters.filter fun x => !(x.1 == key)) _ _ (m.held || false) _
  rw [without_eq, Bool.or_false]
  rfl

theorem settle_counting (P : Drivers τ) (k : Counters) (m : Machine τ) :
    (m.counting k).settle P = (m.settle P).counting k := by
  rw [← seen_all, ← seen_all]
  refine settle_seen k P m ?_
  rw [seen_all]
  rfl

/-- **When the wait is over**, nothing is left of the acquisition but what was counted. -/
theorem observe_left (hkeyed : m.Keyed) (hwaits : m.Waits key)
    (hends : e = .abandon key ∨
      e = .resume key ∧ (m.observe D e).1 = .refused .cancelled) :
    ∃ t, (m.observe D e).2 = ((m.left key).settle (D.observed .pool)).counting { waitTime := t } := by
  rcases hends with rfl | ⟨rfl, hcancelled⟩
  · refine ⟨.zero, ?_⟩
    have hdrains : without key m.drains = m.drains := by
      refine List.filter_eq_self.2 fun x hx => ?_
      have hne : x.1 ≠ key := fun he => (List.nodup_append.1 hkeyed).2.2 key hwaits key
        (List.mem_append_left _ (he ▸ List.mem_map_of_mem hx)) rfl
      simpa using hne
    have hleft : { m with waiters := without key m.waiters, drains := without key m.drains } =
        m.left key := by
      rw [hdrains, without_eq, left, seen, Bool.or_false]
      rfl
    show Machine.settle _ { m with
      waiters := without key m.waiters, drains := without key m.drains } = _
    rw [hleft]
    rfl
  · rcases hpass : m.pass? (.resume key : Event σ) with _ | ⟨m₀, key', a⟩
    · obtain ⟨o, e, ho⟩ := resume_of_pass?_eq_none (D.observed .pool) hpass
      have hout : (m.observe D (.resume key)).1 = (m.resume (D.observed .pool) key).1 := rfl
      rw [hout, e] at hcancelled
      rcases ho with rfl | rfl <;> cases hcancelled
    · rw [observe_of_pass? D hpass] at hcancelled ⊢
      rcases pass?_cases hpass with ⟨who, he, -⟩ | ⟨he, p, hp, -, rfl, rfl⟩
      · cases he
      · obtain rfl := Event.resume.inj he
        refine ⟨m.world.now - p.since, ?_⟩
        rw [← settle_counting, ← recalled_left]
        -- an acquisition that is cancelled has not searched
        rcases (m.recalled key p).pass_cases (D.observed .pool) key p.acquisition with ⟨-, e⟩ |
          ⟨-, budget, ⟨h, w, -, e⟩ | ⟨err, w, ht, e⟩ | ⟨r, w, f, -, e⟩ | ⟨w, -, e⟩⟩
        · rw [e]
        · rw [e] at hcancelled
          cases hcancelled
        · rw [e] at hcancelled
          obtain rfl := Outcome.refused.inj hcancelled
          exact absurd (congrArg Prod.fst ht) (World.tryOut_ne_cancelled _ _ _ _ _ _)
        · rw [e] at hcancelled
          cases hcancelled
        · rw [e] at hcancelled
          cases hcancelled

/-- What is known of every machine of a run, and needed here. -/
structure Orderly (m : Machine τ) : Prop where
  fits : m.world.pool.Fits
  keyed : m.Keyed
  waited : m.AllWaited

theorem observe_orderly (e : Event σ) (h : m.Orderly) : (m.observe D e).2.Orderly where
  fits := observe_kept (World.fits_kept _ _) (fun _ _ hw => hw) m e h.fits
  keyed := stepAs_keyed _ _ e.observed h.keyed
  waited := observe_allWaited D e h.waited

end Events

/-! ## Runs from a machine on -/

section Later

variable (D : Drivers σ)

/-- The machine after some more events. -/
def later (m : Machine (Observed σ)) (es : List (Event σ)) : Machine (Observed σ) :=
  (m.runAs (D.observed .pool) (D.observed .holder) (es.map .observed)).2

/-- Some more events, each with what its user sees. -/
def told (m : Machine (Observed σ)) (es : List (Event σ)) : List (Event σ × Outcome) :=
  es.zip (m.runAs (D.observed .pool) (D.observed .holder) (es.map .observed)).1

theorem later_cons (m : Machine (Observed σ)) (e : Event σ) (es : List (Event σ)) :
    m.later D (e :: es) = (m.observe D e).2.later D es := rfl

theorem told_cons (m : Machine (Observed σ)) (e : Event σ) (es : List (Event σ)) :
    m.told D (e :: es) = (e, (m.observe D e).1) :: (m.observe D e).2.told D es := rfl

theorem later_append (es es' : List (Event σ)) (m : Machine (Observed σ)) :
    m.later D (es ++ es') = (m.later D es).later D es' := by
  induction es generalizing m with
  | nil => rfl
  | cons e es ih => exact ih (m.observe D e).2

theorem told_append (es es' : List (Event σ)) (m : Machine (Observed σ)) :
    m.told D (es ++ es') = m.told D es ++ (m.later D es).told D es' := by
  induction es generalizing m with
  | nil => rfl
  | cons e es ih =>
    rw [List.cons_append, told_cons, told_cons, List.cons_append, ih, later_cons]

theorem observe_counting (k : Counters) (m : Machine (Observed σ)) (e : Event σ) :
    (m.counting k).observe D e = ((m.observe D e).1, (m.observe D e).2.counting k) :=
  stepAs_counting k m _ _ e.observed

/-- A run does the same, whatever was counted before. -/
theorem later_counting (k : Counters) (es : List (Event σ)) (m : Machine (Observed σ)) :
    (m.counting k).later D es = (m.later D es).counting k ∧
      (m.counting k).told D es = m.told D es := by
  induction es generalizing m with
  | nil => exact ⟨rfl, rfl⟩
  | cons e es ih =>
    rw [later_cons, later_cons, told_cons, told_cons, observe_counting]
    obtain ⟨hafter, htold⟩ := ih (m.observe D e).2
    exact ⟨hafter, congrArg _ htold⟩

theorem later_orderly (es : List (Event σ)) {m : Machine (Observed σ)} (h : m.Orderly) :
    (m.later D es).Orderly := by
  induction es generalizing m with
  | nil => exact h
  | cons e es ih => exact ih (observe_orderly e h)

end Later

/-! ## The events of the others -/

/-- What the others do does not go by the key of the one who waits.  When they let the pool go, the one
    who waits still holds it: what they do from then on needs no holder, and the pool is let go when the
    wait is over. -/
def others (key : Key) (event : α → Event σ) : List α → List α
  | [] => []
  | x :: xs =>
    if (event x).key? = some key then others key event xs
    else if (event x).isLetGo then xs.filter (fun y => (event y).isAside key) ++ [x]
    else x :: others key event xs

section Others

variable {key : Key} {event : α → Event σ} {x : α} (xs : List α)

theorem others_own (hkey : (event x).key? = some key) :
    others key event (x :: xs) = others key event xs :=
  if_pos hkey

theorem others_letGo (hkey : (event x).key? ≠ some key) (hletGo : (event x).isLetGo = true) :
    others key event (x :: xs) = xs.filter (fun y => (event y).isAside key) ++ [x] :=
  (if_neg hkey).trans (if_pos hletGo)

theorem others_other (hkey : (event x).key? ≠ some key) (hletGo : ¬ (event x).isLetGo = true) :
    others key event (x :: xs) = x :: others key event xs :=
  (if_neg hkey).trans (if_neg hletGo)

/-- If nobody lets the pool go, all that the others do stays where it is. -/
theorem others_of_held {xs : List α} (h : ∀ x ∈ xs, ¬ (event x).isLetGo = true) :
    others key event xs = xs.filter fun x => decide ((event x).key? ≠ some key) := by
  induction xs with
  | nil => rfl
  | cons x xs ih =>
    have hrest := ih fun y hy => h y (List.mem_cons_of_mem _ hy)
    have hx : ¬ (event x).isLetGo = true := h x List.mem_cons_self
    by_cases hkey : (event x).key? = some key
    · rw [others_own xs hkey, hrest, List.filter_cons_of_neg (by simpa using hkey)]
    · rw [others_other xs hkey hx, hrest, List.filter_cons_of_pos (by simpa using hkey)]

end Others

section Simulation

variable {D : Drivers σ} {key : Key} {m n : Machine (Observed σ)} {k : Counters}

/-- Somebody waits under the key all along. -/
def WaitsAlong (D : Drivers σ) (m : Machine (Observed σ)) (key : Key) (es : List (Event σ)) : Prop :=
  ∀ done, done <+: es → (m.later D done).Waits key

theorem WaitsAlong.tail {e : Event σ} {es : List (Event σ)} (h : m.WaitsAlong D key (e :: es)) :
    (m.observe D e).2.WaitsAlong D key es :=
  fun done hdone => h (e :: done) (List.cons_prefix_cons.2 ⟨rfl, hdone⟩)

theorem WaitsAlong.now {es : List (Event σ)} (h : m.WaitsAlong D key es) : m.Waits key :=
  h [] List.nil_prefix

/-- An event of the one who waits changes nothing for the others, but a counter. -/
theorem beside_own {e : Event σ} (hbeside : m.hidden key = n.counting k) (horderly : m.Orderly)
    (hkey : e.key? = some key) (hbefore : m.Waits key) (hafter : (m.observe D e).2.Waits key) :
    ∃ t, (m.observe D e).2.hidden key = n.counting (k + { waitTime := t }) := by
  obtain ⟨t, ht⟩ := observe_own horderly.fits horderly.keyed horderly.waited hkey hbefore hafter
  exact ⟨t, by rw [ht, hbeside, counting_counting]⟩

/-- An event of another has the same result without the one who waits. -/
theorem beside_other {e : Event σ} (hbeside : m.hidden key = n.counting k)
    (hkey : e.key? ≠ some key) (hletGo : e ≠ .letGo)
    (hheld : m.held = true ∨ e.needsHolder = false) (hafter : (m.observe D e).2.Waits key) :
    (m.observe D e).1 = (n.observe D e).1 ∧
      (m.observe D e).2.hidden key = (n.observe D e).2.counting k := by
  have hstep := observe_hidden hkey hletGo hheld hafter
  rw [hbeside, observe_counting] at hstep
  obtain ⟨hout, hmachine⟩ := Prod.mk.inj hstep
  exact ⟨hout.symm, hmachine.symm⟩

/-- Who does not hold the pool cannot do what needs a holder. -/
theorem observe_of_needsHolder {e : Event σ} (hheld : m.held = false) (hneeds : e.needsHolder = true)
    (hwaits : m.Waits key) : (m.observe D e).2 = m := by
  cases e with
  | letGo =>
    have hsame : ({ m with held := false } : Machine (Observed σ)) = m := by rw [← hheld]
    show settle (D.observed .pool) { m with held := false } = m
    rw [hsame]
    exact settle_of_waits _ hwaits
  | acquire key who | shutDown key | reconfigure change | setTolerance n =>
    simp [observe, stepAs, Event.observed, admits, hheld]
  | _ => cases hneeds

theorem tally_add (k : Counters) (t t' : Duration) :
    k + { waitTime := t } + { waitTime := t' } = k + { waitTime := t + t' } :=
  Counters.add_assoc k { waitTime := t } { waitTime := t' }

/-- **While only those who wait hold the pool**, the others do the same without the one who waits. -/
theorem aside_run (es : List (Event σ)) (hheld : m.held = false)
    (hbeside : m.hidden key = n.counting k) (horderly : m.Orderly)
    (hwaits : m.WaitsAlong D key es) :
    (m.later D es).held = false ∧
      (∃ t, (m.later D es).hidden key =
        (n.later D (es.filter (·.isAside key))).counting (k + { waitTime := t })) ∧
      n.told D (es.filter (·.isAside key)) = (m.told D es).filter fun x => x.1.isAside key := by
  induction es generalizing m n k with
  | nil => exact ⟨hheld, ⟨.zero, hbeside⟩, rfl⟩
  | cons e es ih =>
    have hafter : (m.observe D e).2.Waits key := hwaits.tail.now
    have horderly' : (m.observe D e).2.Orderly := observe_orderly e horderly
    by_cases hkey : e.key? = some key
    · -- the acquisition goes on waiting
      have hletGo : e ≠ .letGo := by
        rintro rfl
        nomatch hkey
      have haside : e.isAside key = false := by simp [Event.isAside, hkey]
      obtain ⟨t, ht⟩ := beside_own hbeside horderly hkey hwaits.now hafter
      obtain ⟨hheld', ⟨t', ht'⟩, htold⟩ := ih ((observe_holds hletGo).trans hheld) ht horderly'
        hwaits.tail
      rw [List.filter_cons_of_neg (by simp [haside]), told_cons,
        List.filter_cons_of_neg (by simp [haside])]
      refine ⟨hheld', ⟨t + t', ?_⟩, htold⟩
      rw [later_cons, ht', tally_add]
    · by_cases hneeds : e.needsHolder = true
      · -- nobody else can do this any more
        have haside : e.isAside key = false := by simp [Event.isAside, hneeds]
        have hsame := observe_of_needsHolder (D := D) hheld hneeds hwaits.now
        obtain ⟨hheld', ht', htold⟩ := ih (by rw [hsame]; exact hheld) (by rw [hsame]; exact hbeside)
          horderly' hwaits.tail
        rw [List.filter_cons_of_neg (by simp [haside]), told_cons,
          List.filter_cons_of_neg (by simp [haside])]
        exact ⟨hheld', ht', htold⟩
      · have hneeds : e.needsHolder = false := Bool.eq_false_iff.2 hneeds
        have hletGo : e ≠ .letGo := by
          rintro rfl
          nomatch hneeds
        have haside : e.isAside key = true := by simp [Event.isAside, hkey, hneeds]
        obtain ⟨hout, hmachine⟩ := beside_other hbeside hkey hletGo (Or.inr hneeds) hafter
        obtain ⟨hheld', ht', htold⟩ := ih ((observe_holds hletGo).trans hheld) hmachine horderly'
          hwaits.tail
        rw [List.filter_cons_of_pos haside, told_cons, told_cons,
          List.filter_cons_of_pos (by exact haside)]
        exact ⟨hheld', ht', by rw [htold, hout]⟩

/-- **When the others let the pool go**, the one who waits holds it, and it comes to its end with the
    wait. -/
theorem letGo_run (es : List (Event σ)) (hbeside : m.hidden key = n.counting k)
    (horderly : m.Orderly) (hwaits : m.WaitsAlong D key (.letGo :: es)) :
    (∃ t, ((m.later D (.letGo :: es)).left key).settle (D.observed .pool) =
      (n.later D (others key id (.letGo :: es))).counting (k + { waitTime := t })) ∧
      n.told D (others key id (.letGo :: es)) = others key Prod.fst (m.told D (.letGo :: es)) := by
  have hgone : (m.observe D .letGo).2 = { m with held := false } :=
    settle_of_waits (D.observed .pool) (m := { m with held := false }) hwaits.now
  have hbeside' : (m.observe D .letGo).2.hidden key = n.counting k := by
    rw [hgone, ← hbeside, hidden, hidden, seen, seen, Bool.or_true, Bool.or_true]
  obtain ⟨hheld', ⟨t, ht⟩, htold⟩ := aside_run es (congrArg Machine.held hgone) hbeside'
    (observe_orderly _ horderly) hwaits.tail
  have hevents : others key id (.letGo :: es) = es.filter (·.isAside key) ++ [.letGo] :=
    others_letGo es (by simp [Event.key?]) rfl
  have htranscript : others key Prod.fst (m.told D (.letGo :: es)) =
      ((m.observe D .letGo).2.told D es).filter (fun x => x.1.isAside key) ++
        [(.letGo, .nothing)] := others_letGo _ (by simp [Event.key?]) rfl
  rw [hevents, htranscript, later_append, told_append, htold]
  refine ⟨⟨t, ?_⟩, rfl⟩
  have hleft : ((m.observe D .letGo).2.later D es).left key =
      { ((m.observe D .letGo).2.later D es).hidden key with held := false } := by
    rw [left, hidden, seen, seen, hheld']
    rfl
  rw [later_cons, hleft, ht]
  exact settle_counting (D.observed .pool) _
    { n.later D (es.filter (·.isAside key)) with held := false }

/-- **The others do the same without the one who waits.** -/
theorem others_run (es : List (Event σ)) (hheld : m.held = true)
    (hbeside : m.hidden key = n.counting k) (horderly : m.Orderly)
    (hwaits : m.WaitsAlong D key es) :
    (∃ t, ((m.later D es).left key).settle (D.observed .pool) =
      (n.later D (others key id es)).counting (k + { waitTime := t })) ∧
      n.told D (others key id es) = others key Prod.fst (m.told D es) := by
  induction es generalizing m n k with
  | nil =>
    have hn : (n.counting k).held = true := by
      rw [← hbeside]
      exact Bool.or_true _
    refine ⟨⟨.zero, ?_⟩, rfl⟩
    show (m.left key).settle _ = n.counting k
    rw [left_of_held hheld, hbeside, settle_of_held _ hn]
  | cons e es ih =>
    have hafter : (m.observe D e).2.Waits key := hwaits.tail.now
    have horderly' : (m.observe D e).2.Orderly := observe_orderly e horderly
    by_cases hkey : e.key? = some key
    · -- the acquisition goes on waiting
      have hletGo : e ≠ .letGo := by
        rintro rfl
        nomatch hkey
      obtain ⟨t, ht⟩ := beside_own hbeside horderly hkey hwaits.now hafter
      obtain ⟨⟨t', ht'⟩, htold⟩ := ih ((observe_holds hletGo).trans hheld) ht horderly' hwaits.tail
      have hevents : others key id (e :: es) = others key id es := others_own es hkey
      have htranscript : others key Prod.fst (m.told D (e :: es)) =
          others key Prod.fst ((m.observe D e).2.told D es) := others_own _ hkey
      rw [hevents, htranscript]
      exact ⟨⟨t + t', by rw [later_cons, ht', tally_add]⟩, htold⟩
    · by_cases hletGo : e.isLetGo = true
      · -- from now on only those who wait hold the pool
        obtain rfl : e = .letGo := by
          cases e with
          | letGo => rfl
          | _ => nomatch hletGo
        exact letGo_run es hbeside horderly hwaits
      · have hne : e ≠ .letGo := by
          rintro rfl
          exact hletGo rfl
        obtain ⟨hout, hmachine⟩ := beside_other hbeside hkey hne (Or.inl hheld) hafter
        obtain ⟨ht, htold⟩ := ih ((observe_holds hne).trans hheld) hmachine horderly' hwaits.tail
        have hevents : others key id (e :: es) = e :: others key id es := others_other es hkey hletGo
        have htranscript : others key Prod.fst (m.told D (e :: es)) =
            (e, (m.observe D e).1) :: others key Prod.fst ((m.observe D e).2.told D es) :=
          others_other _ hkey hletGo
        rw [hevents, htranscript, later_cons, later_cons, told_cons, htold, hout]
        exact ⟨ht, rfl⟩

end Simulation

/-! ## A run without the one who waits -/

section Runs

variable (D : Drivers σ) (source : Source) (config : PoolConfig) (s : σ)

/-- The events of a run, each with what its user sees. -/
def transcript (es : List (Event σ)) : List (Event σ × Outcome) :=
  es.zip (observeAll D source config s es).1

variable (past : List (Event σ)) (key : Key) (who : Option Credentials) (mid : List (Event σ))
  (fin : Event σ) (rest : List (Event σ))

/-- An acquisition that begins after the events `past` only waits: it has to wait when it begins, it does
    so during the events `mid`, whatever becomes of its passes, and with the event `fin` it is given up by
    its user or cancelled. -/
structure OnlyWaits : Prop where
  begun : Begun D source config s (past ++ .acquire key who :: mid) key who past
  ends : fin = .abandon key ∨ fin = .resume key ∧
    ((reached D source config s (past ++ .acquire key who :: mid)).observe D fin).1 =
      .refused .cancelled

/-- The run with the acquisition. -/
def withIt : List (Event σ) := past ++ .acquire key who :: (mid ++ fin :: rest)

/-- The run without it. -/
def withoutIt : List (Event σ) := past ++ (others key id mid ++ rest)

/-- Nobody else can tell whether the acquisition took place. -/
structure Invisible : Prop where
  /-- What the others do has the same results. -/
  results : ∃ before during later o, before.map Prod.fst = past ∧ during.map Prod.fst = mid ∧
    later.map Prod.fst = rest ∧
    transcript D source config s (withIt past key who mid fin rest) =
      before ++ (.acquire key who, .waiting) :: (during ++ (fin, o) :: later) ∧
    transcript D source config s (withoutIt past key mid rest) =
      before ++ (others key Prod.fst during ++ later)
  /-- The drivers are asked the same in the same order, and give the same answers. -/
  log : (reached D source config s (withIt past key who mid fin rest)).log =
    (reached D source config s (withoutIt past key mid rest)).log
  idle : (reached D source config s (withIt past key who mid fin rest)).world.pool.idle =
    (reached D source config s (withoutIt past key mid rest)).world.pool.idle
  active : (reached D source config s (withIt past key who mid fin rest)).world.pool.active =
    (reached D source config s (withoutIt past key mid rest)).world.pool.active
  /-- Two counters differ, and nothing else of the machine: neither the identities and numbers that come
  next, nor the handles that are out, nor those who wait. -/
  machine : ∃ waited, reached D source config s (withIt past key who mid fin rest) =
    (reached D source config s (withoutIt past key mid rest)).counting
      { hadToWait := 1, waitTime := waited }

variable {D source config s past key who mid fin}

theorem orderly_reached (es : List (Event σ)) : (reached D source config s es).Orderly :=
  ⟨fits_reached D source config s es, keyed_reached D source config s es,
    allWaited_reached D source config s es⟩

theorem told_events (m : Machine (Observed σ)) (es : List (Event σ)) :
    (m.told D es).map Prod.fst = es := by
  induction es generalizing m with
  | nil => rfl
  | cons e es ih => rw [told_cons, List.map_cons, ih]

/-- An acquisition that has to wait when it begins is not seen by the others, but on a counter. -/
theorem begins_hidden {m : Machine (Observed σ)} (hfits : m.world.pool.Fits)
    (hadmits : m.admits (.acquire key who) = true)
    (hafter : (m.observe D (.acquire key who)).2.Waits key)
    (hwaiting : (m.observe D (.acquire key who)).1 = .waiting) :
    (m.observe D (.acquire key who)).2.hidden key = m.counting { hadToWait := 1 } := by
  have hevent := observe_of_waits (D := D) (e := .acquire key who) hadmits hafter
  have hheld : m.held = true := (Bool.and_eq_true_iff.1 hadmits).1
  rw [hevent] at hwaiting ⊢
  refine (pass_hidden (D.observed .pool) hfits hwaiting).trans ?_
  rw [hidden_of_absent hheld (not_waits_of_admits hadmits)]
  rfl

/-- **When the wait is over**, the others have had the same results without the acquisition, and the
    machine differs in two counters. -/
theorem OnlyWaits.ended (h : OnlyWaits D source config s past key who mid fin) :
    (∃ waited, (reached D source config s (past ++ .acquire key who :: mid ++ [fin])) =
      ((reached D source config s past).later D (others key id mid)).counting
        { hadToWait := 1, waitTime := waited }) ∧
    (reached D source config s past).told D (others key id mid) = others key Prod.fst
      (((reached D source config s past).observe D (.acquire key who)).2.told D mid) := by
  let m₀ := reached D source config s past
  let m₁ := (m₀.observe D (.acquire key who)).2
  have hafter : ∀ es, reached D source config s (past ++ .acquire key who :: es) = m₁.later D es :=
    fun es => later_append D past (.acquire key who :: es) _
  have hwaits : m₁.WaitsAlong D key mid := by
    obtain ⟨mid', hmid, hwaits⟩ := h.begun.waits
    obtain rfl := (List.cons.inj (List.append_cancel_left hmid)).2
    intro done hdone
    rw [← hafter]
    exact hwaits done hdone
  have hbegins : m₁.hidden key = m₀.counting { hadToWait := 1 } :=
    begins_hidden (fits_reached D source config s past) h.begun.admitted hwaits.now h.begun.waiting
  have hheld : m₁.held = true :=
    (observe_holds (e := .acquire key who) nofun).trans (Bool.and_eq_true_iff.1 h.begun.admitted).1
  have horderly : m₁.Orderly := observe_orderly _ (orderly_reached past)
  obtain ⟨⟨t, hleft⟩, hduring⟩ := others_run mid hheld hbegins horderly hwaits
  refine ⟨?_, hduring⟩
  have hends := h.ends
  rw [hafter] at hends
  obtain ⟨t', hend⟩ := observe_left (later_orderly D mid horderly).keyed
    (hwaits mid (List.prefix_refl _)) hends
  have htally : ({ hadToWait := 1 } : Counters) + { waitTime := t + t' } =
      { hadToWait := 1, waitTime := t + t' } := by
    simp only [Counters.add_def, Duration.zero_add]
  rw [hleft, counting_counting, tally_add, htally] at hend
  exact ⟨t + t', by rw [reached_concat, hafter]; exact hend⟩

/-- **An acquisition that only ever waits is invisible to everyone else.** -/
theorem waiting_is_invisible (h : OnlyWaits D source config s past key who mid fin) :
    Invisible D source config s past key who mid fin rest := by
  let start₀ : Machine (Observed σ) := start (.new source config) ⟨s, []⟩
  let m₀ := reached D source config s past
  let m₁ := (m₀.observe D (.acquire key who)).2
  let n := m₀.later D (others key id mid)
  obtain ⟨⟨waited, hover⟩, hduring⟩ := h.ended
  have hend : ((m₁.later D mid).observe D fin).2 =
      n.counting { hadToWait := 1, waitTime := waited } := by
    rw [← hover, reached_concat]
    exact congrArg (fun m => (m.observe D fin).2)
      (later_append D past (.acquire key who :: mid) start₀).symm
  -- the rest of the run does not look at the counters
  obtain ⟨hmachine, hlater⟩ := later_counting D { hadToWait := 1, waitTime := waited } rest n
  have hwith : reached D source config s (withIt past key who mid fin rest) =
      (n.later D rest).counting { hadToWait := 1, waitTime := waited } := by
    show start₀.later D (past ++ .acquire key who :: (mid ++ fin :: rest)) = _
    rw [later_append, later_cons, later_append, later_cons]
    exact (congrArg (fun m => later D m rest) hend).trans hmachine
  have hwithout : reached D source config s (withoutIt past key mid rest) = n.later D rest := by
    show start₀.later D (past ++ (others key id mid ++ rest)) = _
    rw [later_append, later_append]
    rfl
  constructor
  case results =>
    refine ⟨told D start₀ past, m₁.told D mid, n.told D rest, ((m₁.later D mid).observe D fin).1,
      told_events _ _, told_events _ _, told_events _ _, ?_, ?_⟩
    · show told D start₀ (past ++ .acquire key who :: (mid ++ fin :: rest)) = _
      rw [told_append, told_cons, told_append, told_cons]
      have hlast : ((m₁.later D mid).observe D fin).2.told D rest = n.told D rest := by
        rw [hend]
        exact hlater
      have hfirst : (m₀.observe D (.acquire key who)).1 = .waiting := h.begun.waiting
      show _ ++ (_, (m₀.observe D (.acquire key who)).1) :: (_ ++ _ :: ((m₁.later D mid).observe D
        fin).2.told D rest) = _
      rw [hlast, hfirst]
      rfl
    · show told D start₀ (past ++ (others key id mid ++ rest)) = _
      rw [told_append, told_append]
      exact congrArg (fun l => told D start₀ past ++ (l ++ n.told D rest)) hduring
  case machine =>
    exact ⟨waited, by rw [hwith, hwithout]⟩
  all_goals
    rw [hwith, hwithout]
    rfl

end Runs

/-- The connection comes back, and another acquires before the one who waits goes on and has to wait
    again. -/
def overtaken : List (Event Bank) :=
  [.release 0, .acquire 2 none, .resume 1]

/-- The one who was overtaken gives up, and it is as if it had never come. -/
theorem overtaken_is_invisible :
    OnlyWaits Bank.drivers target single [.scripted {}] [.acquire 0 none] 1 none overtaken
      (.abandon 1) ∧
    Invisible Bank.drivers target single [.scripted {}] [.acquire 0 none] 1 none overtaken
      (.abandon 1) [.release 2] := by
  have hwaits : ∀ done ∈ overtaken.inits, (reached Bank.drivers target single [.scripted {}]
      ([.acquire 0 none] ++ .acquire 1 none :: done)).Waits 1 := by
    decide +kernel
  have hbegun : Begun Bank.drivers target single [.scripted {}]
      ([.acquire 0 none] ++ .acquire 1 none :: overtaken) 1 none [.acquire 0 none] :=
    ⟨by decide +kernel, overtaken, rfl, fun done hdone => hwaits done ((List.mem_inits _ _).2 hdone)⟩
  have honly : OnlyWaits Bank.drivers target single [.scripted {}] [.acquire 0 none] 1 none overtaken
      (.abandon 1) := ⟨hbegun, Or.inl rfl⟩
  exact ⟨honly, waiting_is_invisible [.release 2] honly⟩

end Machine

end ConnPool
