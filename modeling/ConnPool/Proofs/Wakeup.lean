/-
  Whom a connection that leaves the active list wakes.

  An acquisition sleeps if it waits and was not woken since.  A machine is at rest (`Rested`) if it
  lets nobody sleep while something could be handed out: somebody sleeps only while nothing is idle and
  as many connections are out as may be.

  Returns, changes of the configuration and shutdowns wake all who wait.  A pass does not, and a pass
  can take a connection off the active list as well: it reclaims one that is overdue, finds it bad, and
  then its budget is used up, or does not fit in a word, or the connection that it tries to open instead
  is refused.  Those who sleep are not told (`Strands`).  This is the only way: a run rests after each of its events just when
  none of them strands anybody (`rested_iff_not_strands`), and `strands_somebody` is a run in which one
  does.

  The proof goes by what one event does to those who sleep (`Rouses`, `stepAs_rouses`).
-/
import ConnPool.Driver.Bank
import ConnPool.Proofs.Limits

namespace ConnPool

variable {σ : Type}

/-! ## The end of a pass -/

namespace World

variable (P : Drivers σ)

/-- A candidate makes up for what the search for it took off the active list. -/
theorem takeCandidate_found_length {w w' : World σ} {who : Credentials} {c : Wrapper} {n : Nat}
    (ht : w.takeCandidate P who = (.found c, w'))
    (hn : n ≤ w.pool.active.length ∨
      n ≤ w.pool.active.length + 1 ∧ w.pool.active.length < w.pool.config.maxActive) :
    n ≤ w'.pool.active.length + 1 := by
  rcases takeCandidate_found P ht with ⟨rest, hi, rfl⟩ | ⟨hi, hlt, rfl, s, hs, rfl⟩ |
    ⟨hi, oldest, rest, ha, hle, hover, rfl, rfl⟩
  · show n ≤ w.pool.active.length + 1
    omega
  · show n ≤ w.pool.active.length + 1
    omega
  · show n ≤ rest.length + 1
    rw [ha, List.length_cons] at hn hle
    omega

/-- How a pass ends: what is handed out makes up for what was reclaimed, and nobody is told to wait
    while there is something to hand out. -/
theorem tryOut_end (who : Credentials) (startedAt : Instant) (budget r : Nat) {w : World σ}
    (h : w.pool.Fits) :
    match (w.tryOut P who startedAt budget r).1 with
    | .handedOut _ =>
      w.pool.active.length ≤ (w.tryOut P who startedAt budget r).2.pool.active.length
    | .mustWait _ =>
      (w.tryOut P who startedAt budget r).2.pool.idle = [] ∧
      (w.tryOut P who startedAt budget r).2.pool.config.maxActive ≤
        (w.tryOut P who startedAt budget r).2.pool.active.length
    | .failed _ | .overflowed => True := by
  -- while a bad connection has not been replaced there is room for one more
  refine tryOut_rule P
    (I := fun _ w₁ => w₁.pool.Fits ∧ (w.pool.active.length ≤ w₁.pool.active.length ∨
      w.pool.active.length ≤ w₁.pool.active.length + 1 ∧
        w₁.pool.active.length < w₁.pool.config.maxActive))
    (Q := fun e w' => match e with
      | .handedOut _ => w.pool.active.length ≤ w'.pool.active.length
      | .mustWait _ => w'.pool.idle = [] ∧ w'.pool.config.maxActive ≤ w'.pool.active.length
      | .failed _ | .overflowed => True) ?_ ?_ ?_ ?_ ?_ ?_ budget r w
    ⟨h, Or.inl (Nat.le_refl _)⟩
  · intros
    trivial
  · rintro r w₁ w' - ht
    obtain ⟨rfl, hi, oldest, rest, ha, hle, -⟩ := takeCandidate_mustWait P ht
    exact ⟨hi, hle⟩
  · rintro r w₁ c w₂ w₃ ⟨-, hn⟩ ht hg
    have hlength := takeCandidate_found_length P ht hn
    show w.pool.active.length ≤ (w₃.pool.active ++ [_]).length
    rw [pool_of_isGood P hg, List.length_append, List.length_singleton]
    exact hlength
  · rintro r w₁ c w₂ w₃ ⟨hfits, hn⟩ ht hg
    obtain ⟨hfits', hroom⟩ := takeCandidate_fits P ht hfits
    have hlength := takeCandidate_found_length P ht hn
    rw [reject_pool, pool_of_isGood P hg]
    refine ⟨⟨hfits'.idle, hfits'.total⟩, Or.inr ⟨hlength, ?_⟩⟩
    show w₂.pool.active.length < w₂.pool.config.maxActive
    omega
  · intros
    trivial
  · intros
    trivial

/-- The connection that is out longest is overdue. -/
def Overdue (w : World σ) : Prop :=
  ∃ oldest rest, w.pool.active = oldest :: rest ∧
    w.pool.config.maxCheckoutTime < w.now - oldest.checkoutAt

/-- A search leaves the active list as it is, or takes from it what is overdue. -/
theorem takeCandidate_found_overdue {w w' : World σ} {who : Credentials} {c : Wrapper}
    (ht : w.takeCandidate P who = (.found c, w')) :
    w'.now = w.now ∧ (w'.pool.active = w.pool.active ∨ w.Overdue) := by
  rcases takeCandidate_found P ht with ⟨rest, hi, rfl⟩ | ⟨hi, hlt, rfl, s, hs, rfl⟩ |
    ⟨hi, oldest, rest, ha, hle, hover, rfl, rfl⟩
  · exact ⟨rfl, Or.inl rfl⟩
  · exact ⟨rfl, Or.inl rfl⟩
  · exact ⟨rfl, Or.inr ⟨oldest, rest, ha, hover⟩⟩

/-- Since `w` nothing was taken off the active list but what was overdue then. -/
structure OnlyOverdue (w w₁ : World σ) : Prop where
  now : w₁.now = w.now
  pruned : w.pool.Pruned w₁.pool
  active : w₁.pool.active = w.pool.active ∨ w.Overdue

theorem OnlyOverdue.refl (w : World σ) : OnlyOverdue w w :=
  ⟨rfl, Pool.Pruned.refl _, Or.inl rfl⟩

theorem OnlyOverdue.found {w w₁ w₂ : World σ} {who : Credentials} {c : Wrapper}
    (h : OnlyOverdue w w₁) (ht : w₁.takeCandidate P who = (.found c, w₂)) : OnlyOverdue w w₂ := by
  obtain ⟨hnow, hactive⟩ := takeCandidate_found_overdue P ht
  refine ⟨hnow.trans h.now, h.pruned.trans (takeCandidate_found_pruned P ht).1, ?_⟩
  rcases h.active with hsame | hover
  · rcases hactive with hactive | ⟨oldest, rest, ha, hover⟩
    · exact Or.inl (hactive.trans hsame)
    · -- the first connection that is reclaimed
      rw [hsame] at ha
      rw [h.now, h.pruned.config] at hover
      exact Or.inr ⟨oldest, rest, ha, hover⟩
  · exact Or.inr hover

theorem OnlyOverdue.failed {w w₁ w₂ : World σ} {who : Credentials} {e : PoolError}
    (h : OnlyOverdue w w₁) (ht : w₁.takeCandidate P who = (.failed e, w₂)) : OnlyOverdue w w₂ := by
  rcases takeCandidate_failed P ht with ⟨hi, hlt, cause, s, hs, rfl, rfl⟩ | ⟨hi, ha, hz, -, rfl⟩
  · exact ⟨h.now, h.pruned.trans (takeCandidate_failed_pruned P ht), h.active⟩
  · exact h

/-- If the active list is shorter now, something was overdue. -/
theorem OnlyOverdue.overdue {w w₁ : World σ} (h : OnlyOverdue w w₁)
    (hless : w₁.pool.active.length < w.pool.active.length) : w.Overdue := by
  rcases h.active with hsame | hover
  · rw [hsame] at hless
    exact absurd hless (Nat.lt_irrefl _)
  · exact hover

/-- A pass shortens the active list only if a connection is overdue when it begins. -/
theorem overdue_of_tryOut (who : Credentials) (startedAt : Instant) (budget r : Nat) (w : World σ) :
    (w.tryOut P who startedAt budget r).2.pool.active.length < w.pool.active.length →
      w.Overdue := by
  refine tryOut_rule P (I := fun _ w₁ => OnlyOverdue w w₁)
    (Q := fun _ w' => w'.pool.active.length < w.pool.active.length → w.Overdue)
    ?_ ?_ ?_ ?_ ?_ ?_ budget r w (OnlyOverdue.refl w)
  · intro r w₁ e w' hw ht
    exact (hw.failed P ht).overdue
  · intro r w₁ w' hw ht
    rw [(takeCandidate_mustWait P ht).1]
    exact hw.overdue
  · intro r w₁ c w₂ w₃ hw ht hg hless
    refine (hw.found P ht).overdue ?_
    rw [handOut_pool, pool_of_isGood P hg, List.length_append] at hless
    omega
  · intro r w₁ c w₂ w₃ hw ht hg
    have hfound := hw.found P ht
    have hpool := pool_of_isGood P hg
    refine ⟨(now_of_isGood P hg).trans hfound.now, ?_, ?_⟩
    · rw [reject_pool, hpool]
      exact hfound.pruned.trans (Pool.pruned_invalidate_count ..)
    · rw [reject_pool, hpool]
      exact hfound.active
  · intro r w₁ hw
    exact hw.overdue
  · intro r w₁ hw
    exact hw.overdue

end World

namespace Machine

/-! ## Sleepers -/

/-- Those who wait and were not woken since. -/
def sleepers (m : Machine σ) : List (Key × Waiter) :=
  m.waiters.filter fun e => !e.2.woken

/-- Nobody sleeps while something could be handed out. -/
def Rested (m : Machine σ) : Prop :=
  m.world.pool.closed = false → m.sleepers ≠ [] →
    m.world.pool.idle = [] ∧ m.world.pool.active.length = m.world.pool.config.maxActive

/-- An event strands somebody: an acquisition is refused or breaks off, fewer connections are out than
    before, and somebody sleeps. -/
def Strands (D : Drivers σ) (m : Machine σ) (e : Event σ) : Prop :=
  ((∃ err, (m.step D e).1 = .refused err) ∨ (m.step D e).1 = .overflowed) ∧
  (m.step D e).2.world.pool.active.length < m.world.pool.active.length ∧
  (m.step D e).2.sleepers ≠ []

theorem sleepers_wakeAll (m : Machine σ) : m.wakeAll.sleepers = [] := by
  rw [sleepers, List.filter_eq_nil_iff]
  intro e he
  obtain ⟨e', -, rfl⟩ := List.mem_map.1 he
  exact Bool.false_ne_true

/-- Whoever goes leaves the others as they were. -/
theorem sleepers_without (m : Machine σ) (key : Key) :
    (without key m.waiters).filter (fun e => !e.2.woken) ⊆ m.sleepers :=
  (List.filter_sublist.filter _).subset

/-! ## What an event does to those who sleep -/

/-- What a machine has to do with the machine before, as far as those who sleep are concerned. -/
inductive Rouses (m : Machine σ) (o : Outcome) (m' : Machine σ) : Prop
  /-- Nobody sleeps. -/
  | woken (nobody : m'.sleepers = [])
  /-- As many are out as before, or more. -/
  | replaced (sleepers : m'.sleepers ⊆ m.sleepers)
      (closed : m'.world.pool.closed = m.world.pool.closed)
      (limit : m'.world.pool.config.maxActive = m.world.pool.config.maxActive)
      (idle : m'.world.pool.idle <:+ m.world.pool.idle)
      (active : m.world.pool.active.length ≤ m'.world.pool.active.length)
  /-- An acquisition came to nothing. -/
  | failed (refused : (∃ err, o = .refused err) ∨ o = .overflowed) (sleepers : m'.sleepers ⊆ m.sleepers)
      (closed : m'.world.pool.closed = m.world.pool.closed)
      (limit : m'.world.pool.config.maxActive = m.world.pool.config.maxActive)
      (idle : m'.world.pool.idle <:+ m.world.pool.idle)
      (overdue : m'.world.pool.active.length < m.world.pool.active.length → m.world.Overdue)
  /-- Somebody began to wait. -/
  | waits (opened : m'.world.pool.closed = false)
      (limit : m'.world.pool.config.maxActive = m.world.pool.config.maxActive)
      (idle : m'.world.pool.idle = [])
      (active : m'.world.pool.config.maxActive ≤ m'.world.pool.active.length)

/-- What has to be known of a machine to say whom an event wakes. -/
structure Alert (m : Machine σ) : Prop where
  fits : m.world.pool.Fits
  /-- Only a pool that is shut down drains. -/
  draining : m.drains ≠ [] → m.world.pool.closed = true
  /-- A shutdown has woken all who waited. -/
  woken : m.world.pool.closed = true → m.sleepers = []

theorem alert_start (source : Source) (config : PoolConfig) (s : σ) :
    Alert (start (.new source config) s) :=
  ⟨Pool.fits_new source config, fun h => absurd rfl h, fun _ => rfl⟩

/-- Nothing left the lists, and nobody began to wait. -/
theorem rouses_of_lists {m m' : Machine σ} {o : Outcome} (hsleepers : m'.sleepers ⊆ m.sleepers)
    (hclosed : m'.world.pool.closed = m.world.pool.closed)
    (hlimit : m'.world.pool.config.maxActive = m.world.pool.config.maxActive)
    (hactive : m'.world.pool.active = m.world.pool.active)
    (hidle : m'.world.pool.idle = m.world.pool.idle) : m.Rouses o m' :=
  .replaced hsleepers hclosed hlimit (hidle ▸ List.suffix_refl _)
    (Nat.le_of_eq (congrArg List.length hactive.symm))

/-- An acquisition that comes to nothing has woken nobody. -/
theorem failed_rouses {P : Drivers σ} {m : Machine σ} {who : Credentials} {startedAt : Instant}
    {budget n : Nat} {r : PassEnd} {w : World σ} {o : Outcome}
    (ht : m.world.tryOut P who startedAt budget n = (r, w)) (hr : ∀ h, r ≠ .handedOut h)
    (ho : (∃ err, o = .refused err) ∨ o = .overflowed) : m.Rouses o { m with world := w } := by
  have hpruned := World.pruned_of_tryOut ht hr
  have hoverdue := World.overdue_of_tryOut P who startedAt budget n m.world
  rw [ht] at hoverdue
  exact .failed ho (List.Subset.refl _) hpruned.closed (congrArg _ hpruned.config) hpruned.idle hoverdue

theorem pass_rouses (P : Drivers σ) (m : Machine σ) (key : Key) (a : Acquisition)
    (h : m.world.pool.Fits) : m.Rouses (m.pass P key a).1 (m.pass P key a).2 := by
  rcases m.pass_cases P key a with ⟨-, e⟩ | ⟨hopen, budget, h' | h' | h' | h'⟩
  · rw [e]
    exact rouses_of_lists (List.Subset.refl _) rfl rfl rfl rfl
  · obtain ⟨hd, w, ht, e⟩ := h'
    have hend := World.tryOut_end P a.who a.startedAt budget a.rejected h
    have hout := World.tryOut_pruned P a.who a.startedAt budget a.rejected m.world
    rw [ht] at hend hout
    have hout : m.world.pool.HandsOut w.pool hd := hout
    rw [e]
    exact .replaced (List.Subset.refl _) hout.closed (congrArg _ hout.config) hout.idle hend
  · obtain ⟨err, w, ht, e⟩ := h'
    rw [e]
    exact failed_rouses ht nofun (Or.inl ⟨err, rfl⟩)
  · obtain ⟨r, w, f, ht, e⟩ := h'
    have hend := World.tryOut_end P a.who a.startedAt budget a.rejected h
    have hpruned := World.pruned_of_tryOut ht nofun
    rw [ht] at hend
    rw [e]
    exact .waits (hpruned.closed.trans hopen) (congrArg _ hpruned.config) hend.1 hend.2
  · obtain ⟨w, ht, e⟩ := h'
    rw [e]
    exact failed_rouses ht nofun (Or.inr rfl)

/-- Closing the pool in case nobody refers to it any more leaves nobody asleep. -/
theorem Rouses.settle (P : Drivers σ) {m m' : Machine σ} {o : Outcome} (h : m.Rouses o m') :
    m.Rouses o (m'.settle P) := by
  unfold Machine.settle
  split
  case isFalse => exact h
  case isTrue hu =>
    have hwaiters : m'.waiters = [] := by
      simp only [unused, Bool.and_eq_true, List.isEmpty_iff] at hu
      exact hu.1.1.1.2
    refine .woken ?_
    show m'.waiters.filter _ = []
    rw [hwaiters, List.filter_nil]

/-- A look wakes nobody, and opens no pool that is shut down. -/
theorem lookAt_sleepers (P : Drivers σ) (m : Machine σ) (key : Key) (deadline : Instant) :
    (m.lookAt P key deadline).2.sleepers = m.sleepers ∧
      (m.lookAt P key deadline).2.world.pool.closed = m.world.pool.closed := by
  rcases m.lookAt_cases P key deadline with ⟨out, e⟩ | ⟨drain, e⟩
  · rw [e]
    refine ⟨rfl, ?_⟩
    show (m.world.invalidateAll P).pool.closed = _
    rw [World.invalidateAll_pool]
  · rw [e]
    exact ⟨rfl, rfl⟩

theorem drains_ne_nil_of_drain? {m : Machine σ} {key : Key} {d : Drain}
    (h : m.drain? key = some d) : m.drains ≠ [] := by
  rintro hnil
  rw [drain?, hnil] at h
  nomatch h

/-- **What an event does to those who sleep.** -/
theorem stepAs_rouses (P H : Drivers σ) {m : Machine σ} (e : Event σ) (h : Alert m) :
    m.Rouses (m.stepAs P H e).1 (m.stepAs P H e).2 := by
  unfold stepAs
  split
  case isFalse => exact rouses_of_lists (List.Subset.refl _) rfl rfl rfl rfl
  case isTrue =>
    refine Rouses.settle P ?_
    cases e with
    | acquire key who => exact pass_rouses P m key _ h.fits
    | resume key =>
      show m.Rouses (m.resume P key).1 (m.resume P key).2
      rcases m.resume_cases P key with ⟨o, e, -⟩ | ⟨p, f, -, e⟩
      · rw [e]
        exact rouses_of_lists (List.Subset.refl _) rfl rfl rfl rfl
      · rw [e]
        have hpass := pass_rouses P { m with
          waiters := without key m.waiters
          world := m.world.onPool (·.count f) } key p.acquisition ⟨h.fits.idle, h.fits.total⟩
        have hsub := m.sleepers_without key
        cases hpass with
        | woken nobody => exact .woken nobody
        | replaced sleepers closed limit idle active =>
          exact .replaced (List.Subset.trans sleepers hsub) closed limit idle active
        | failed refused sleepers closed limit idle overdue =>
          exact .failed refused (List.Subset.trans sleepers hsub) closed limit idle overdue
        | waits opened limit idle active => exact .waits opened limit idle active
    | abandon key => exact rouses_of_lists (m.sleepers_without key) rfl rfl rfl rfl
    | release key =>
      show m.Rouses .nothing (m.release P key)
      rcases m.release_cases P key with ⟨-, e⟩ | ⟨hd, -, e⟩
      · rw [e]
        exact rouses_of_lists (List.Subset.refl _) rfl rfl rfl rfl
      · rw [e]
        exact .woken (sleepers_wakeAll _)
    | use key call =>
      show m.Rouses (m.use H key call).1 (m.use H key call).2
      rcases m.use_cases H key call with ⟨-, e⟩ | ⟨hd, -, -, e⟩ | ⟨hd, o, -, -, e, -⟩
      all_goals
        rw [e]
        exact rouses_of_lists (List.Subset.refl _) rfl rfl rfl rfl
    | reconfigure change => exact .woken (sleepers_wakeAll _)
    | setTolerance n => exact rouses_of_lists (List.Subset.refl _) rfl rfl rfl rfl
    | shutDown key =>
      refine .woken ((lookAt_sleepers P _ key _).1.trans ?_)
      exact sleepers_wakeAll (m.onWorld (·.onPool fun p => { p with closed := true }))
    | look key =>
      show m.Rouses (m.look P key).1 (m.look P key).2
      rcases m.look_cases P key with ⟨o, e, -⟩ | ⟨d, hd, e⟩
      · rw [e]
        exact rouses_of_lists (List.Subset.refl _) rfl rfl rfl rfl
      · -- whoever drains has woken all who waited
        have hwoken := h.woken (h.draining (drains_ne_nil_of_drain? hd))
        rw [e]
        exact .woken ((lookAt_sleepers P _ key d.deadline).1.trans hwoken)
    | advance d => exact rouses_of_lists (List.Subset.refl _) rfl rfl rfl rfl
    | disturb change => exact rouses_of_lists (List.Subset.refl _) rfl rfl rfl rfl
    | letGo => exact rouses_of_lists (List.Subset.refl _) rfl rfl rfl rfl

end Machine

/-! ## Every event keeps a machine alert -/

/-- A pool that is shut down stays so. -/
theorem World.closed_kept (P H : Drivers σ) :
    World.Kept P H fun w => w.pool.closed = true where
  count _ h := h
  tryOut {w} who startedAt budget r h :=
    (w.tryOut_sameTerms P who startedAt budget r).closed.trans h
  checkIn {w} id h := (w.checkIn_takesBack P id).closed.trans h
  invalidateAll {w} h := by
    rw [invalidateAll_pool]
    exact h
  reconfigure {w} change h := by
    rw [World.reconfigure, invalidateAll_pool, onPool_pool, Pool.apply_eq]
    exact h
  tolerate _ h := h
  shut _ := rfl
  advance _ h := h
  call _ _ h := h

namespace Machine

theorem pass_drains (P : Drivers σ) (m : Machine σ) (key : Key) (a : Acquisition) :
    (m.pass P key a).2.drains = m.drains := by
  rcases m.pass_cases P key a with ⟨-, e⟩ | ⟨-, budget, ⟨h, w, -, e⟩ | ⟨err, w, -, e⟩ |
    ⟨r, w, f, -, e⟩ | ⟨w, -, e⟩⟩
  all_goals rw [e]

/-- Nobody begins to drain but by a shutdown. -/
theorem react_drains (D : Drivers σ) (m : Machine σ) (e : Event σ)
    (h : (m.react D e).2.drains ≠ []) : m.drains ≠ [] ∨ ∃ key, e = .shutDown key := by
  cases e with
  | acquire key who =>
    rw [react, acquire, pass_drains] at h
    exact Or.inl h
  | resume key =>
    rcases m.resume_cases D key with ⟨o, e, -⟩ | ⟨p, f, -, e⟩
    · rw [react, e] at h
      exact Or.inl h
    · rw [react, e, pass_drains] at h
      exact Or.inl h
  | abandon key =>
    refine Or.inl fun hnil => h ?_
    show without key m.drains = []
    rw [hnil]
    rfl
  | release key =>
    rcases m.release_cases D key with ⟨-, e⟩ | ⟨hd, -, e⟩
    all_goals
      rw [react, e] at h
      exact Or.inl h
  | use key call =>
    rcases m.use_cases D key call with ⟨-, e⟩ | ⟨hd, -, -, e⟩ | ⟨hd, o, -, -, e, -⟩
    all_goals
      rw [react, e] at h
      exact Or.inl h
  | reconfigure change => exact Or.inl h
  | setTolerance n => exact Or.inl h
  | shutDown key => exact Or.inr ⟨key, rfl⟩
  | look key =>
    rcases m.look_cases D key with ⟨o, e, -⟩ | ⟨d, hd, -⟩
    · rw [react, e] at h
      exact Or.inl h
    · exact Or.inl (drains_ne_nil_of_drain? hd)
  | advance d => exact Or.inl h
  | disturb change => exact Or.inl h
  | letGo => exact Or.inl h

theorem settle_drains (P : Drivers σ) (m : Machine σ) : (m.settle P).drains = m.drains := by
  unfold settle
  split <;> rfl

/-- **Every event keeps a machine alert.** -/
theorem stepAs_alert (P H : Drivers σ) {m : Machine σ} (e : Event σ) (h : Alert m) :
    Alert (m.stepAs P H e).2 := by
  have hclosed : m.world.pool.closed = true → (m.stepAs P H e).2.world.pool.closed = true :=
    stepAs_kept (World.closed_kept P H) m e fun _ _ _ hw => hw
  constructor
  case fits => exact stepAs_kept (World.fits_kept P H) m e (fun _ _ _ hw => hw) h.fits
  case draining =>
    intro hdrains
    by_cases he : m.admits e = true
    · have estep : (m.stepAs P H e).2 = (m.react (e.view P H) e).2.settle P := by
        simp only [stepAs, he, if_true]
      rw [estep, settle_drains] at hdrains
      rcases react_drains _ m e hdrains with hold | ⟨key, rfl⟩
      · exact hclosed (h.draining hold)
      · rw [estep]
        refine settle_kept (World.closed_kept P H).toKeptBetween _ ?_
        exact (lookAt_sleepers P _ key _).2
    · have estep : (m.stepAs P H e).2 = m := by
        simp only [stepAs, he, Bool.false_eq_true, if_false]
      rw [estep] at hdrains ⊢
      exact h.draining hdrains
  case woken =>
    intro hshut
    cases stepAs_rouses P H e h with
    | woken nobody => exact nobody
    | replaced sleepers closed limit idle active =>
      have hold := h.woken (closed.symm.trans hshut)
      rw [hold] at sleepers
      exact List.subset_nil.1 sleepers
    | failed refused sleepers closed limit idle overdue =>
      have hold := h.woken (closed.symm.trans hshut)
      rw [hold] at sleepers
      exact List.subset_nil.1 sleepers
    | waits opened limit idle active => exact absurd (opened.symm.trans hshut) Bool.false_ne_true

/-! ## Rest -/

theorem step_alert (D : Drivers σ) {m : Machine σ} (e : Event σ) (h : Alert m) :
    Alert (m.step D e).2 := by
  rw [← stepAs_self]
  exact stepAs_alert D D e h

theorem step_rouses (D : Drivers σ) {m : Machine σ} (e : Event σ) (h : Alert m) :
    m.Rouses (m.step D e).1 (m.step D e).2 := by
  rw [← stepAs_self]
  exact stepAs_rouses D D e h

/-- Nobody sleeps in vain if nobody new sleeps, nothing new is idle and no fewer are out. -/
theorem Rested.of_replaced {m m' : Machine σ} (h : Rested m) (hfits : m'.world.pool.Fits)
    (hsleepers : m'.sleepers ⊆ m.sleepers) (hclosed : m'.world.pool.closed = m.world.pool.closed)
    (hlimit : m'.world.pool.config.maxActive = m.world.pool.config.maxActive)
    (hidle : m'.world.pool.idle <:+ m.world.pool.idle)
    (hactive : m.world.pool.active.length ≤ m'.world.pool.active.length) : Rested m' := by
  intro hopen hsleeps
  obtain ⟨hnone, hfull⟩ := h (hclosed.symm.trans hopen) fun hnobody =>
    hsleeps (List.subset_nil.1 (hnobody ▸ hsleepers))
  have htotal := hfits.total
  rw [hnone] at hidle
  exact ⟨List.suffix_nil.1 hidle, by omega⟩

/-- An event that strands nobody keeps the rest. -/
theorem rested_of_not_strands (D : Drivers σ) {m : Machine σ} (e : Event σ) (h : Alert m)
    (hrested : Rested m) (hnot : ¬ Strands D m e) : Rested (m.step D e).2 := by
  have hfits := (step_alert D e h).fits
  have htotal := hfits.total
  cases step_rouses D e h with
  | woken nobody => exact fun _ hsleeps => absurd nobody hsleeps
  | replaced sleepers closed limit idle active =>
    exact hrested.of_replaced hfits sleepers closed limit idle active
  | failed refused sleepers closed limit idle overdue =>
    by_cases hsleeps : (m.step D e).2.sleepers = []
    · exact fun _ hsome => absurd hsleeps hsome
    · -- else the event strands whoever sleeps
      have hlength : m.world.pool.active.length ≤ (m.step D e).2.world.pool.active.length :=
        Nat.le_of_not_lt fun hless => hnot ⟨refused, hless, hsleeps⟩
      exact hrested.of_replaced hfits sleepers closed limit idle hlength
  | waits opened limit idle active => exact fun _ _ => ⟨idle, by omega⟩

/-- An event that strands somebody ends the rest. -/
theorem not_rested_of_strands (D : Drivers σ) {m : Machine σ} {e : Event σ} (h : Alert m)
    (hstrands : Strands D m e) : ¬ Rested (m.step D e).2 := by
  obtain ⟨-, hless, hsleeps⟩ := hstrands
  have hafter := step_alert D e h
  intro hrested
  have hopen : (m.step D e).2.world.pool.closed = false := by
    by_contra hclosed
    exact hsleeps (hafter.woken (by simpa using hclosed))
  obtain ⟨-, hactive⟩ := hrested hopen hsleeps
  have htotal := h.fits.total
  cases step_rouses D e h with
  | woken nobody => exact hsleeps nobody
  | replaced sleepers closed limit idle active => omega
  | failed refused sleepers closed limit idle overdue => omega
  | waits opened limit idle active => omega

/-- An event that takes a connection off the active list wakes all who wait, or strands somebody. -/
theorem woken_or_strands (D : Drivers σ) {m : Machine σ} (e : Event σ) (h : Alert m)
    (hless : (m.step D e).2.world.pool.active.length < m.world.pool.active.length) :
    (m.step D e).2.sleepers = [] ∨ Strands D m e := by
  have htotal := h.fits.total
  cases step_rouses D e h with
  | woken nobody => exact Or.inl nobody
  | replaced sleepers closed limit idle active => omega
  | failed refused sleepers closed limit idle overdue =>
    by_cases hsleeps : (m.step D e).2.sleepers = []
    · exact Or.inl hsleeps
    · exact Or.inr ⟨refused, hless, hsleeps⟩
  | waits opened limit idle active => omega

/-- Somebody is stranded only when a connection was overdue. -/
theorem overdue_of_strands (D : Drivers σ) {m : Machine σ} {e : Event σ} (h : Alert m)
    (hstrands : Strands D m e) : m.world.Overdue := by
  obtain ⟨-, hless, hsleeps⟩ := hstrands
  have htotal := h.fits.total
  cases step_rouses D e h with
  | woken nobody => exact absurd nobody hsleeps
  | replaced sleepers closed limit idle active => omega
  | failed refused sleepers closed limit idle overdue => exact overdue hless
  | waits opened limit idle active => omega

/-- The machine of a new pool after some events. -/
def after (D : Drivers σ) (source : Source) (config : PoolConfig) (s : σ) (es : List (Event σ)) :
    Machine σ :=
  ((start (.new source config) s).runAll D es).2

variable (D : Drivers σ) (source : Source) (config : PoolConfig) (s : σ)

theorem after_concat (es : List (Event σ)) (e : Event σ) :
    after D source config s (es ++ [e]) = ((after D source config s es).step D e).2 := by
  simp only [after, ← runAs_self, runAs_concat, stepAs_self]

theorem alert_after (es : List (Event σ)) : Alert (after D source config s es) := by
  rw [after, ← runAs_self]
  exact runAs_rule D D es (J := fun _ m => Alert m) (alert_start source config s)
    fun _ _ e _ h => stepAs_alert D D e h

/-- **Wake-ups.**  A run rests after each of its events just when none of them strands anybody.  An
    event that takes a connection off the active list, without putting another there, wakes all who
    wait unless it strands somebody, and it strands somebody only if a connection was overdue. -/
theorem rested_iff_not_strands (es : List (Event σ)) :
    ((∀ past, past <+: es → Rested (after D source config s past)) ↔
      ∀ past e, past ++ [e] <+: es → ¬ Strands D (after D source config s past) e) ∧
    (∀ past e,
      (after D source config s (past ++ [e])).world.pool.active.length <
        (after D source config s past).world.pool.active.length →
      (after D source config s (past ++ [e])).sleepers = [] ∨
        Strands D (after D source config s past) e) ∧
    ∀ past e, Strands D (after D source config s past) e →
      (after D source config s past).world.Overdue := by
  refine ⟨⟨?_, ?_⟩, ?_, ?_⟩
  · intro hrested past e hpast hstrands
    refine not_rested_of_strands D (alert_after D source config s past) hstrands ?_
    rw [← after_concat]
    exact hrested _ hpast
  · intro hnot past
    induction past using List.reverseRecOn with
    | nil => exact fun _ _ hsleeps => absurd rfl hsleeps
    | append_singleton past e ih =>
      intro hpast
      rw [after_concat]
      exact rested_of_not_strands D e (alert_after D source config s past)
        (ih ((List.prefix_append past [e]).trans hpast)) (hnot past e hpast)
  · intro past e hless
    rw [after_concat] at hless ⊢
    exact woken_or_strands D e (alert_after D source config s past) hless
  · intro past e hstrands
    exact overdue_of_strands D (alert_after D source config s past) hstrands

end Machine

/-! ## A run that strands somebody -/

namespace Machine

/-- One connection at most, none of them kept, and no bad one put up with. -/
def narrow : PoolConfig :=
  { maxActive := 1
    maxIdle := 0
    maxCheckoutTime := .ofMillis 10
    timeToWait := .zero
    badConnectionTolerance := 0 }

/-- One acquires, another waits; the first becomes overdue, its connection goes bad, and a third
    acquires. -/
def stranding : List (Event Bank) :=
  [.acquire 0 none, .acquire 1 none, .advance (.ofMillis 20),
    .disturb (·.tamper 0 (.rules [{ call := "is_closed", conn := some 1 }])), .acquire 2 none]

/-- The third takes the connection from the first, finds it bad and gives up.  Nothing is out any more,
    and the second sleeps on. -/
theorem strands_somebody :
    ¬ Rested (after Bank.drivers { config := { driver := "scripted", url := "mem://db" } } narrow
      [.scripted {}] stranding) := by
  intro hrested
  have h := hrested (by decide +kernel) (by decide +kernel)
  revert h
  decide +kernel

end Machine

end ConnPool
