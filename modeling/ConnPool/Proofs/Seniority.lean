/-
  Who holds a connection for longest stands in front.

  A search for a candidate looks at the first connection of the active list only: if that one is not
  overdue, it takes none to be.  This is right since the list is in the order of the checkouts
  (`InOrder`).  A hand-out is stamped with the time at which it joins the end of the list, a pass takes
  from the front, and a return takes one out of the middle, which leaves the others in order.  So if the
  first is not overdue, nobody is (`InOrder.none_overdue`).
-/
import ConnPool.Proofs.Deeds
import ConnPool.Proofs.Tally

namespace ConnPool

variable {σ : Type}

/-- Wrappers in the order in which they were stamped, none of them later than now. -/
structure InOrder (now : Instant) (l : List Wrapper) : Prop where
  sorted : l.Pairwise fun c d => c.checkoutAt ≤ d.checkoutAt
  past : ∀ c ∈ l, c.checkoutAt ≤ now

namespace InOrder

variable {now now' : Instant} {l l' : List Wrapper} {c : Wrapper}

theorem nil (now : Instant) : InOrder now [] := ⟨List.Pairwise.nil, nofun⟩

theorem sublist (h : InOrder now l) (hl : l'.Sublist l) : InOrder now l' :=
  ⟨h.sorted.sublist hl, fun c hc => h.past c (hl.subset hc)⟩

/-- Time goes on. -/
theorem later (h : InOrder now l) (hnow : now ≤ now') : InOrder now' l :=
  ⟨h.sorted, fun c hc => Nat.le_trans (h.past c hc) hnow⟩

/-- What is stamped now joins the end. -/
theorem concat (h : InOrder now l) (hc : c.checkoutAt = now) : InOrder now (l ++ [c]) := by
  constructor
  case sorted =>
    refine List.pairwise_append.2 ⟨h.sorted, List.pairwise_singleton _ _, fun d hd c' hc' => ?_⟩
    rw [List.mem_singleton.1 hc', hc]
    exact h.past d hd
  case past =>
    intro d hd
    rcases List.mem_append.1 hd with hd | hd
    · exact h.past d hd
    · rw [List.mem_singleton.1 hd, hc]
      exact Nat.le_refl _

/-- **If the first of the list is not overdue, nobody is.** -/
theorem none_overdue {oldest : Wrapper} {rest : List Wrapper} {limit : Duration}
    (h : InOrder now (oldest :: rest)) (hnot : ¬ limit < now - oldest.checkoutAt) :
    ∀ c ∈ oldest :: rest, ¬ limit < now - c.checkoutAt := by
  intro c hc hover
  have hfirst : oldest.checkoutAt ≤ c.checkoutAt := by
    rcases List.mem_cons.1 hc with rfl | hrest
    · exact Nat.le_refl _
    · exact (List.pairwise_cons.1 h.sorted).1 c hrest
  refine hnot ?_
  rw [Duration.lt_iff, Duration.nanos_sub] at hover ⊢
  rw [Duration.le_iff] at hfirst
  omega

end InOrder

namespace World

/-- A pass takes from the front of the active list, and what it hands out joins the end. -/
theorem tryOut_inOrder (P : Drivers σ) (who : Credentials) (startedAt : Instant) (budget r : Nat)
    {w : World σ} (h : InOrder w.now w.pool.active) :
    InOrder (w.tryOut P who startedAt budget r).2.now
      (w.tryOut P who startedAt budget r).2.pool.active := by
  obtain ⟨taken, rest, htally⟩ := w.tryOut_tally P who startedAt budget r
  have hrest : InOrder w.now rest := by
    refine h.sublist ?_
    rw [htally.before]
    exact List.sublist_append_right taken rest
  rw [tryOut_now]
  cases hend : (w.tryOut P who startedAt budget r).1 with
  | handedOut hd =>
    obtain ⟨c, hactive, -, hstamp⟩ := htally.handedOut hd hend
    rw [hactive]
    exact hrest.concat hstamp
  | mustWait _ | failed _ | overflowed =>
    rw [htally.otherwise fun hd he => nomatch hend.symm.trans he]
    exact hrest

/-- **The active list stays in order**, whatever happens to the pool. -/
theorem inOrder_kept (P H : Drivers σ) : Kept P H fun w => InOrder w.now w.pool.active where
  count _ h := h
  tryOut who startedAt budget r h := tryOut_inOrder P who startedAt budget r h
  checkIn {w} id h := by
    rw [checkIn_now]
    exact h.sublist (w.checkIn_takesBack P id).active
  invalidateAll {w} _ := by
    rw [invalidateAll_pool]
    exact InOrder.nil _
  reconfigure {w} change _ := by
    rw [reconfigure, invalidateAll_pool]
    exact InOrder.nil _
  tolerate _ h := h
  shut h := h
  advance {w} d h := h.later (Nat.le_add_right _ _)
  call _ _ h := h

end World

namespace Machine

theorem inOrder_reached (D : Drivers σ) (source : Source) (config : PoolConfig) (s : σ)
    (es : List (Event σ)) : InOrder (reached D source config s es).world.now
      (reached D source config s es).world.pool.active :=
  observeAll_rule D source config s es (J := fun _ m => InOrder m.world.now m.world.pool.active)
    (InOrder.nil _) fun _ m e _ h => observe_kept (World.inOrder_kept _ _) (fun _ _ hw => hw) m e h

end Machine

end ConnPool
