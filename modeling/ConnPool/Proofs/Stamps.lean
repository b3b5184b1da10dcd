/-
  When wrappers are stamped.

  A wrapper bears two stamps that change: when it changed hands, and when its connection was last handed
  out.  A hand-out sets both to the time of the hand-out.  A return wraps the connection anew and sets
  the first of them; the other stays.  Nothing else that an event does leaves a wrapper on a list with
  stamps that it did not have before (`observe_stamps`).

  So it can be told from a run when a wrapper on a list was stamped: `ListedSince` names the event in
  which it joined the list, and it has been there ever since.
-/
import ConnPool.Proofs.Belonging

namespace ConnPool

variable {σ : Type}

/-! ## What a pass stamps -/

namespace World

variable (D : Drivers σ)

/-- What a pass hands out joins the end of the active list, stamped with the time of the pass. -/
theorem tryOut_stamps (who : Credentials) (startedAt : Instant) (budget r : Nat) (w : World σ)
    (h : Handle) (hout : (w.tryOut D who startedAt budget r).1 = .handedOut h) :
    ∃ rest c, (w.tryOut D who startedAt budget r).2.pool.active = rest ++ [c] ∧
      rest <:+ w.pool.active ∧ c.handle = h ∧ c.checkoutAt = w.now ∧ c.lastUsedAt = w.now := by
  refine tryOut_rule D (I := fun _ w₁ => w.pool.Pruned w₁.pool ∧ w₁.now = w.now)
    (Q := fun e w' => e = .handedOut h → ∃ rest c, w'.pool.active = rest ++ [c] ∧
      rest <:+ w.pool.active ∧ c.handle = h ∧ c.checkoutAt = w.now ∧ c.lastUsedAt = w.now)
    ?failed ?wait ?good ?bad ?exhausted ?overflowed budget r w ⟨Pool.Pruned.refl _, rfl⟩ hout
  case failed => exact fun _ _ he => nomatch he
  case wait => exact fun _ _ he => nomatch he
  case exhausted => exact fun _ he => nomatch he
  case overflowed => exact fun _ he => nomatch he
  case good =>
    intro r w₁ c w₂ w₃ ⟨hpruned, hnow⟩ ht hg he
    have hsame : w₃.now = w.now :=
      (now_of_isGood D hg).trans ((takeCandidate_found_now D ht).trans hnow)
    have hactive : w₃.pool.active <:+ w.pool.active := by
      rw [pool_of_isGood D hg]
      exact (hpruned.trans (takeCandidate_found_pruned D ht).1).active
    exact ⟨w₃.pool.active, w₃.stamped who c, rfl, hactive, PassEnd.handedOut.inj he, hsame, hsame⟩
  case bad =>
    intro r w₁ c w₂ w₃ ⟨hpruned, hnow⟩ ht hg
    refine ⟨?_, (now_of_isGood D hg).trans ((takeCandidate_found_now D ht).trans hnow)⟩
    rw [reject_pool, pool_of_isGood D hg]
    exact (hpruned.trans (takeCandidate_found_pruned D ht).1).trans (Pool.pruned_invalidate_count ..)

end World

/-! ## What an event stamps -/

namespace Machine

/-- The wrappers on the lists after an event were there before, or were stamped in it. -/
structure Stamps (m : Machine (Observed σ)) (e : Event σ) (o : Outcome) (m' : Machine (Observed σ)) :
    Prop where
  /-- What joins the active list is handed out, and bears the time of the event. -/
  active : ∀ c' ∈ m'.world.pool.active, c' ∈ m.world.pool.active ∨
    o = .acquired c'.handle ∧ c'.checkoutAt = m.world.now ∧ c'.lastUsedAt = m.world.now
  /-- What joins the idle list comes back, and is wrapped anew at the time of the event. -/
  idle : ∀ c' ∈ m'.world.pool.idle, c' ∈ m.world.pool.idle ∨ ∃ key h c, e = .release key ∧
    m.handle? key = some h ∧ c ∈ m.world.pool.active ∧ c.id = h.id ∧
    c' = m.world.pool.rewrapped c m.world.now
  /-- What is handed out is on the active list, and bears the time of the event. -/
  handsOut : ∀ h, o = .acquired h → ∃ c ∈ m'.world.pool.active,
    c.handle = h ∧ c.checkoutAt = m.world.now ∧ c.lastUsedAt = m.world.now

namespace Stamps

variable {m m' : Machine (Observed σ)} {e : Event σ} {o : Outcome}

theorem of_subset (hout : ∀ h, o ≠ .acquired h)
    (hactive : m'.world.pool.active ⊆ m.world.pool.active)
    (hidle : m'.world.pool.idle ⊆ m.world.pool.idle) : m.Stamps e o m' :=
  ⟨fun _ hc => Or.inl (hactive hc), fun _ hc => Or.inl (hidle hc), fun h ho => absurd ho (hout h)⟩

theorem of_emptied (hout : ∀ h, o ≠ .acquired h) (h : m'.Emptied) : m.Stamps e o m' := by
  obtain ⟨hactive, hidle⟩ := List.append_eq_nil_iff.1 h.wrappers
  refine of_subset hout ?_ ?_
  · rw [hactive]
    exact List.nil_subset _
  · rw [hidle]
    exact List.nil_subset _

end Stamps

theorem Deed.stamps {D : Drivers σ} {m m' : Machine (Observed σ)} {e : Event σ} {o : Outcome}
    (hd : m.Deed D e o m') : m.Stamps e o m' := by
  cases hd with
  | aside out alike =>
    exact .of_subset out (alike.active ▸ List.Subset.refl _) (alike.idle ▸ List.Subset.refl _)
  | @handsOut _ key a f budget h w waiters serves pass =>
    have hstamps := World.tryOut_stamps (D.observed .pool) a.who a.startedAt budget a.rejected
      (m.world.onPool (·.count f)) h (congrArg Prod.fst pass)
    have hpruned := World.tryOut_pruned (D.observed .pool) a.who a.startedAt budget a.rejected
      (m.world.onPool (·.count f))
    rw [pass] at hstamps hpruned
    obtain ⟨rest, c, hactive, hrest, hhandle, hcheckout, hlast⟩ := hstamps
    replace hactive : w.pool.active = rest ++ [c] := hactive
    refine ⟨fun c' hc' => ?_, fun c' hc' => Or.inl (hpruned.idle.subset hc'), fun h' ho => ?_⟩
    · rw [show _ = rest ++ [c] from hactive] at hc'
      rcases List.mem_append.1 hc' with hc' | hc'
      · exact Or.inl (hrest.subset hc')
      · obtain rfl := List.mem_singleton.1 hc'
        exact Or.inr ⟨congrArg Outcome.acquired hhandle.symm, hcheckout, hlast⟩
    · refine ⟨c, ?_, hhandle.trans (Outcome.acquired.inj ho), hcheckout, hlast⟩
      rw [show _ = rest ++ [c] from hactive]
      exact List.mem_append_right _ List.mem_cons_self
  | @fails _ _ key a f g budget r w waiters serves out pass nothing =>
    have hpruned := World.pruned_of_tryOut pass nothing
    exact .of_subset out hpruned.active.subset hpruned.idle.subset
  | @release key h handle =>
    refine ⟨fun c' hc' => Or.inl ((m.world.checkIn_takesBack _ h.id).active.subset hc'),
      fun c' hc' => ?_, nofun⟩
    replace hc' : c' ∈ (m.world.checkIn (D.observed .pool) h.id).pool.idle := hc'
    rcases m.world.idle_of_checkIn (D.observed .pool) h.id with e' | ⟨c, hc, hid, -, e'⟩
    · exact Or.inl (e' ▸ hc')
    · rw [e'] at hc'
      rcases List.mem_append.1 hc' with hc' | hc'
      · exact Or.inl hc'
      · exact Or.inr ⟨key, h, c, rfl, handle, hc, hid, List.mem_singleton.1 hc'⟩
  | use _ _ out => exact .of_subset out (List.Subset.refl _) (List.Subset.refl _)
  | reconfigure change =>
    have hempty := emptied_invalidateAll (D.observed .pool) (m.onWorld (·.onPool (·.apply change)))
    exact .of_emptied nofun ⟨hempty.wrappers, hempty.expected⟩
  | closesAll _ => exact .of_emptied nofun (emptied_invalidateAll (D.observed .pool) _)

/-- Somebody has what was just handed out, so the pool is in use. -/
theorem Deed.nothing_of_unused {D : Drivers σ} {m m' : Machine (Observed σ)} {e : Event σ} {o : Outcome}
    (hd : m.Deed D e o m') (hunused : m'.unused = true) : ∀ h, o ≠ .acquired h := by
  cases hd with
  | aside out _ | fails _ _ out _ _ | use _ _ out => exact out
  | release _ | reconfigure _ | closesAll _ => exact nofun
  | handsOut waiters serves pass =>
    have hhandles := (unused_iff.1 hunused).2.2.2
    simp at hhandles

/-- **What an event stamps**: what it hands out, and what comes back. -/
theorem observe_stamps (D : Drivers σ) (m : Machine (Observed σ)) (e : Event σ) :
    m.Stamps e (m.observe D e).1 (m.observe D e).2 := by
  obtain ⟨m', hdeed, hafter⟩ := m.observe_deed D e
  rcases hafter with hsame | ⟨hunused, hclosed⟩
  · rw [hsame]
    exact hdeed.stamps
  · have hempty := emptied_invalidateAll (D.observed .pool) m'
    rw [hclosed]
    exact .of_emptied (hdeed.nothing_of_unused hunused) ⟨hempty.wrappers, hempty.expected⟩

/-- What an event that hands something out does to the pool. -/
theorem handsOut_of_acquired (D : Drivers σ) {m : Machine (Observed σ)} {e : Event σ} {h : Handle}
    (hout : (m.observe D e).1 = .acquired h) :
    m.world.pool.HandsOut (m.observe D e).2.world.pool h := by
  have hhands : m.Hands (m.observe D e).1 (m.observe D e).2 := stepAs_hands _ _ m e.observed
  rcases hhands with ⟨hn, -, -⟩ | ⟨key, h', ho, hpool, -⟩
  · rw [hout] at hn
    nomatch hn
  · obtain rfl := Outcome.acquired.inj (ho.symm.trans hout)
    exact hpool

/-! ## Since when a wrapper is on a list -/

section Runs

variable (D : Drivers σ) (source : Source) (config : PoolConfig) (s : σ)

/-- In the run of the events `es`, a wrapper joined a list of the pool in the event `e`, before which
    the events `past` took place, and has been on that list ever since. -/
structure ListedSince (list : Pool → List Wrapper) (past : List (Event σ)) (e : Event σ)
    (es : List (Event σ)) (c : Wrapper) : Prop where
  took : past ++ [e] <+: es
  joined : c ∉ list (reached D source config s past).world.pool
  stayed : ∀ mid, past ++ [e] <+: mid → mid <+: es →
    c ∈ list (reached D source config s mid).world.pool

variable {D source config s} {list : Pool → List Wrapper} {past es : List (Event σ)} {e e' : Event σ}
  {c : Wrapper}

theorem ListedSince.concat (h : ListedSince D source config s list past e es c)
    (hc : c ∈ list (reached D source config s (es ++ [e'])).world.pool) :
    ListedSince D source config s list past e (es ++ [e']) c where
  took := h.took.trans (List.prefix_append _ _)
  joined := h.joined
  stayed mid hpast hmid := by
    rcases List.prefix_concat_iff.1 hmid with rfl | hmid
    · exact hc
    · exact h.stayed mid hpast hmid

theorem listedSince_last (hnot : c ∉ list (reached D source config s es).world.pool)
    (hc : c ∈ list (reached D source config s (es ++ [e])).world.pool) :
    ListedSince D source config s list es e (es ++ [e]) c where
  took := List.prefix_refl _
  joined := hnot
  stayed mid hpast hmid := by
    rw [← hpast.eq_of_length_le hmid.length_le]
    exact hc

/-- **What is out was handed out** at the time that it bears, and has been out ever since. -/
theorem listed_of_active (es : List (Event σ)) :
    ∀ c ∈ (reached D source config s es).world.pool.active, ∃ past e,
      ListedSince D source config s Pool.active past e es c ∧
      ((reached D source config s past).observe D e).1 = .acquired c.handle ∧
      c.checkoutAt = (reached D source config s past).world.now := by
  induction es using List.reverseRecOn with
  | nil => exact nofun
  | append_singleton es e ih =>
    intro c hc
    by_cases hbefore : c ∈ (reached D source config s es).world.pool.active
    · obtain ⟨past, e', hlisted, hout, hstamp⟩ := ih c hbefore
      exact ⟨past, e', hlisted.concat hc, hout, hstamp⟩
    · have hstamps := observe_stamps D (reached D source config s es) e
      rw [← reached_concat] at hstamps
      obtain ⟨hout, hstamp, -⟩ := (hstamps.active c hc).resolve_left hbefore
      exact ⟨es, e, listedSince_last hbefore hc, hout, hstamp⟩

/-- **What is idle came back** at the time that it bears, and has been idle ever since. -/
theorem listed_of_idle (es : List (Event σ)) :
    ∀ c ∈ (reached D source config s es).world.pool.idle, ∃ past key h,
      ListedSince D source config s Pool.idle past (.release key) es c ∧
      (reached D source config s past).handle? key = some h ∧ h.conn = c.conn ∧
      c.checkoutAt = (reached D source config s past).world.now := by
  induction es using List.reverseRecOn with
  | nil => exact nofun
  | append_singleton es e ih =>
    intro c hc
    by_cases hbefore : c ∈ (reached D source config s es).world.pool.idle
    · obtain ⟨past, key, h, hlisted, hhandle, hconn, hstamp⟩ := ih c hbefore
      exact ⟨past, key, h, hlisted.concat hc, hhandle, hconn, hstamp⟩
    · have hstamps := observe_stamps D (reached D source config s es) e
      rw [← reached_concat] at hstamps
      obtain ⟨key, h, c₀, rfl, hhandle, hc₀, hid, hwrapped⟩ :=
        (hstamps.idle c hc).resolve_left hbefore
      -- what came back had the handle that was returned
      have hsame := (owned_reached D source config s es).handle_eq (mem_of_lookup hhandle) hc₀ hid
      refine ⟨es, key, h, listedSince_last hbefore hc, hhandle, ?_, ?_⟩
      · rw [hwrapped]
        exact (congrArg Handle.conn hsame).symm
      · rw [hwrapped]
        rfl

end Runs

end Machine

end ConnPool
