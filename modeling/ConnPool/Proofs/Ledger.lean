/-
  Following every connection through its changes of hands.

  A connection is on the active list, on the idle list or, in the middle of an operation, in hand.  A
  property `R w l` of a world and of the list `l` of all its wrappers, those in hand included, is a
  `Ledger` if it survives each thing that can happen to one connection: it is opened, found fit or
  unfit, rolled back, reclaimed, stamped, kept, closed or thrown away.  Which list a wrapper is on must
  not matter to `R`.  A property that depends on the order in which these things are done is no ledger,
  but it may still go its `Rounds`, for which trying a candidate out is one thing, and taking a
  connection back is another.

  What goes its rounds is right after every pass, every return and every change of the configuration.
  All the ways of a connection through these operations are gone through here, once for all.
-/
import ConnPool.Proofs.Run

namespace ConnPool

/-- The wrappers of both lists. -/
def Pool.wrappers (p : Pool) : List Wrapper := p.active ++ p.idle

variable {σ : Type}

/-- A world in which a connection was just opened for a caller; `s` is what that made of the drivers. -/
def World.openedFor (w : World σ) (who : Credentials) (s : σ) : World σ :=
  { w with
    pool := { w.pool.enroll (w.pool.wrapped w.nextConn who w.now) with
      nextTicket := w.pool.nextTicket + 1
      nextRaw := w.pool.nextRaw + 1 }
    drivers := s }

/-- A world in which opening a connection just failed. -/
def World.refusedBy (w : World σ) (s : σ) : World σ :=
  { w with
    pool := { w.pool with nextTicket := w.pool.nextTicket + 1 }
    drivers := s }

/-- A property of a world and of all its wrappers that survives a connection being opened, reclaimed,
    stamped, moved from list to list, and thrown away. -/
structure World.Books (P : Drivers σ) (R : World σ → List Wrapper → Prop) : Prop where
  perm : ∀ {w l l'}, R w l → l.Perm l' → R w l'
  lists : ∀ {w l} active idle counters expected, R w l →
    R (w.onPool fun p => { p with active, idle, counters, expected }) l
  opened : ∀ {w l who s}, l.length < w.pool.config.maxActive →
    w.pool.source.newConnection P who w.nextConn w.drivers = (.ok (), s) → R w l →
    R (w.openedFor who s) (w.pool.wrapped w.nextConn who w.now :: l)
  refused : ∀ {w l who e s}, l.length < w.pool.config.maxActive →
    w.pool.source.newConnection P who w.nextConn w.drivers = (.error e, s) → R w l →
    R (w.refusedBy s) l
  reclaimed : ∀ {w l c}, R w (c :: l) → R (w.reclaim P c).2 ((w.reclaim P c).1 :: l)
  stamped : ∀ {w l c} who, R w (c :: l) → R w (w.stamped who c :: l)
  discarded : ∀ {w l c}, R w (c :: l) → R (w.discard P c) l

/-- Books that survive everything else that happens to one connection as well. -/
structure World.Ledger (P : Drivers σ) (R : World σ → List Wrapper → Prop) : Prop extends
    World.Books P R where
  fit : ∀ {w w' l c}, w.isFit P c = (true, w') → R w (c :: l) → R w' (c :: l)
  unfit : ∀ {w w' l c}, w.isFit P c = (false, w') → R w (c :: l) → R (w'.discard P c) l
  rolledBack : ∀ {w l c}, R w (c :: l) → R (w.run (P.rollbackIfManual c.conn)).2 (c :: l)
  kept : ∀ {w l c}, R w (c :: l) → R (w.keep c) (w.pool.rewrapped c w.now :: l)
  closed : ∀ {w l c}, R w (c :: l) → R (w.close P c) l

/-- Books that survive the rounds of a connection: trying it out, and taking it back. -/
structure World.Rounds (P : Drivers σ) (R : World σ → List Wrapper → Prop) : Prop extends
    World.Books P R where
  good : ∀ {w w' l c}, w.isGood P c = (true, w') → R w (c :: l) → R w' (c :: l)
  bad : ∀ {w w' l c}, w.isGood P c = (false, w') → R w (c :: l) → R (w'.reject P c) l
  takenBack : ∀ {w c}, R w (c :: w.pool.wrappers) →
    R (w.takeBack P c) (w.takeBack P c).pool.wrappers

/-- What is counted does not matter to books. -/
theorem World.Books.count {P : Drivers σ} {R : World σ → List Wrapper → Prop} (hR : Books P R)
    {w : World σ} {l : List Wrapper} (f : Counters → Counters) (h : R w l) :
    R (w.onPool (·.count f)) l :=
  hR.lists w.pool.active w.pool.idle (f w.pool.counters) w.pool.expected h

/-- What is kept is on the idle list under its new wrapper. -/
theorem World.keep_wrappers (w : World σ) (c : Wrapper) :
    (w.pool.rewrapped c w.now :: w.pool.wrappers).Perm (w.keep c).pool.wrappers := by
  show (_ :: (w.pool.active ++ w.pool.idle)).Perm (w.pool.active ++ (w.pool.idle ++ [_]))
  rw [← List.append_assoc]
  exact (List.perm_append_singleton _ _).symm

/-! ## What goes its rounds -/

namespace World.Rounds

variable {P : Drivers σ} {R : World σ → List Wrapper → Prop} {w w' : World σ} {c : Wrapper}

/-- While nothing is idle all wrappers are out. -/
theorem length_wrappers_of_idle_nil {p : Pool} (hi : p.idle = []) :
    p.active.length = p.wrappers.length := by
  rw [Pool.wrappers, hi, List.append_nil]

/-- A search takes its candidate in hand. -/
theorem takeCandidate_found (hR : Rounds P R) {who : Credentials}
    (ht : w.takeCandidate P who = (.found c, w')) (h : R w w.pool.wrappers) :
    R w' (c :: w'.pool.wrappers) := by
  rcases World.takeCandidate_found P ht with ⟨rest, hi, rfl⟩ | ⟨hi, hlt, rfl, s, hs, rfl⟩ |
    ⟨hi, oldest, rest, ha, hle, hover, rfl, rfl⟩
  · -- from the idle list
    have hl : w.pool.wrappers.Perm (c :: (w.pool.active ++ rest)) := by
      rw [Pool.wrappers, hi]
      exact List.perm_middle
    exact hR.lists w.pool.active rest w.pool.counters w.pool.expected (hR.perm h hl)
  · -- opened
    exact hR.opened (length_wrappers_of_idle_nil hi ▸ hlt) hs h
  · -- from the front of the active list
    have hl : w.pool.wrappers = oldest :: (rest ++ w.pool.idle) := by
      rw [Pool.wrappers, ha]
      rfl
    rw [hl] at h
    exact hR.reclaimed (hR.lists rest w.pool.idle w.pool.counters w.pool.expected h)

theorem takeCandidate_failed (hR : Rounds P R) {who : Credentials} {e : PoolError}
    (ht : w.takeCandidate P who = (.failed e, w')) (h : R w w.pool.wrappers) :
    R w' w'.pool.wrappers := by
  rcases World.takeCandidate_failed P ht with ⟨hi, hlt, cause, s, hs, rfl, rfl⟩ |
    ⟨hi, ha, hz, -, rfl⟩
  · exact hR.refused (length_wrappers_of_idle_nil hi ▸ hlt) hs h
  · exact h

/-- What is handed out goes from the hand to the end of the active list. -/
theorem handOut (hR : Rounds P R) (who : Credentials) (startedAt : Instant)
    (h : R w (c :: w.pool.wrappers)) :
    R (w.handOut who startedAt c).2 (w.handOut who startedAt c).2.pool.wrappers := by
  have hl : (w.stamped who c :: w.pool.wrappers).Perm
      (w.pool.active ++ [w.stamped who c] ++ w.pool.idle) := by
    rw [Pool.wrappers, List.append_assoc]
    exact List.perm_middle.symm
  have hstamped := hR.perm (hR.stamped who h) hl
  have hmoved := hR.lists (w.pool.active ++ [w.stamped who c]) w.pool.idle
    (w.handOut who startedAt c).2.pool.counters w.pool.expected hstamped
  exact hmoved

/-- **A pass is made of rounds.** -/
theorem tryOut (hR : Rounds P R) (who : Credentials) (startedAt : Instant) (budget r : Nat)
    (h : R w w.pool.wrappers) : R (w.tryOut P who startedAt budget r).2
      (w.tryOut P who startedAt budget r).2.pool.wrappers := by
  refine tryOut_rule P (I := fun _ w => R w w.pool.wrappers) (Q := fun _ w => R w w.pool.wrappers)
    ?_ ?_ ?_ ?_ ?_ ?_ budget r w h
  · intro r w e w' hw ht
    exact hR.takeCandidate_failed ht hw
  · intro r w w' hw ht
    rw [(takeCandidate_mustWait P ht).1]
    exact hw
  · intro r w c w₁ w₂ hw ht hg
    have hgood := hR.good hg (hR.takeCandidate_found ht hw)
    rw [← pool_of_isGood P hg] at hgood
    exact hR.handOut who startedAt hgood
  · intro r w c w₁ w₂ hw ht hg
    have hbad := hR.bad hg (hR.takeCandidate_found ht hw)
    rw [← pool_of_isGood P hg] at hbad
    exact hbad
  · intro r w hw
    exact hw
  · intro r w hw
    exact hw

/-- The same of a pass in which something was counted first. -/
theorem pass (hR : Rounds P R) {who : Credentials} {startedAt : Instant} {budget rejected : Nat}
    {f : Counters → Counters} {r : PassEnd}
    (hpass : (w.onPool (·.count f)).tryOut P who startedAt budget rejected = (r, w'))
    (h : R w w.pool.wrappers) : R w' w'.pool.wrappers := by
  have hcounted : R (w.onPool (·.count f)) (w.onPool (·.count f)).pool.wrappers := hR.count f h
  have hafter := hR.tryOut who startedAt budget rejected hcounted
  rw [hpass] at hafter
  exact hafter

/-! ## Returns and changes of the configuration -/

/-- **A return is one round**, or none. -/
theorem checkIn (hR : Rounds P R) (id : Nat) (h : R w w.pool.wrappers) :
    R (w.checkIn P id) (w.checkIn P id).pool.wrappers := by
  rcases w.checkIn_cases P id with ⟨-, e⟩ | ⟨c, front, back, ha, -, -, e⟩
  · rw [e]
    exact hR.count _ h
  · have hl : w.pool.wrappers.Perm (c :: (front ++ back ++ w.pool.idle)) := by
      rw [Pool.wrappers, ha]
      exact List.perm_middle.append_right w.pool.idle
    have hout := hR.lists (front ++ back) w.pool.idle w.pool.counters w.pool.expected (hR.perm h hl)
    rw [e]
    exact hR.takenBack hout

/-- One connection is thrown away after the other, until none is left. -/
theorem foldl_discard (hR : Rounds P R) : ∀ (l : List Wrapper) (w : World σ),
    R w l → R (l.foldl (discard P) w) []
  | [], _, h => h
  | _ :: l, _, h => foldl_discard hR l _ (hR.discarded h)

/-- **Throwing everything away is made of rounds**, and leaves nothing. -/
theorem invalidateAll (hR : Rounds P R) (h : R w w.pool.wrappers) :
    R (w.invalidateAll P) (w.invalidateAll P).pool.wrappers := by
  have hnone : (w.invalidateAll P).pool.wrappers = [] := by
    rw [invalidateAll_pool]
    rfl
  rw [hnone]
  exact hR.foldl_discard _ _ (hR.lists [] [] w.pool.counters w.pool.source.identity h)

end World.Rounds

/-! ## A ledger goes its rounds -/

namespace World.Ledger

variable {P : Drivers σ} {R : World σ → List Wrapper → Prop} {w w' : World σ} {c : Wrapper}

/-- A good candidate stays in the ledger. -/
theorem good (hR : Ledger P R) {l : List Wrapper} (hg : w.isGood P c = (true, w'))
    (h : R w (c :: l)) : R w' (c :: l) := by
  rcases isGood_cases P hg with ⟨hbad, -⟩ | ⟨w₁, r, hfit, hr, -⟩
  · nomatch hbad
  · obtain rfl := congrArg Prod.snd hr
    exact hR.rolledBack (hR.fit hfit h)

/-- A bad candidate is thrown away and leaves the ledger. -/
theorem bad (hR : Ledger P R) {l : List Wrapper} (hg : w.isGood P c = (false, w'))
    (h : R w (c :: l)) : R (w'.reject P c) l := by
  rw [reject_eq]
  refine hR.count _ ?_
  rcases isGood_cases P hg with ⟨-, hfit⟩ | ⟨w₁, r, hfit, hr, -⟩
  · exact hR.unfit hfit h
  · obtain rfl := congrArg Prod.snd hr
    exact hR.discarded (hR.rolledBack (hR.fit hfit h))

/-- What came back in good health is still in hand when it has been rolled back. -/
theorem returned (hR : Ledger P R) {w₁ w₂ : World σ} {r : Except ConnectionError Unit}
    (hfit : w.isFit P c = (true, w₁))
    (hr : (w₁.countedBack c).run (P.rollbackIfManual c.conn) = (r, w₂))
    (h : R w (c :: w.pool.wrappers)) : R w₂ (c :: w₂.pool.wrappers) := by
  have hback : R (w₁.countedBack c) (c :: w.pool.wrappers) := hR.count _ (hR.fit hfit h)
  have hrolled := hR.rolledBack hback
  rw [hr] at hrolled
  have hw : w₂.pool.wrappers = w.pool.wrappers := by
    rw [pool_of_countedBack P hfit hr]
    rfl
  rw [hw]
  exact hrolled

/-- What came back goes from the hand to the end of the idle list, or leaves the ledger. -/
theorem takeBack (hR : Ledger P R) (h : R w (c :: w.pool.wrappers)) :
    R (w.takeBack P c) (w.takeBack P c).pool.wrappers := by
  rcases w.takeBack_cases P c with ⟨w₁, hfit, e⟩ | ⟨w₁, w₂, hfit, hr, hk, e⟩ |
    ⟨w₁, r, w₂, hfit, hr, -, e⟩
  · have hunfit := hR.unfit hfit h
    rw [← pool_of_isFit P hfit] at hunfit
    rw [e, reject_eq]
    exact hR.count _ hunfit
  · rw [e]
    exact hR.perm (hR.kept (hR.returned hfit hr h)) (w₂.keep_wrappers c)
  · rw [e]
    exact hR.closed (hR.returned hfit hr h)

theorem rounds (hR : Ledger P R) : Rounds P R where
  toBooks := hR.toBooks
  good := hR.good
  bad := hR.bad
  takenBack := hR.takeBack

end World.Ledger

/-! ## Every event -/

namespace World.Ledger

variable {P H : Drivers σ} {R : World σ → List Wrapper → Prop}

/-- A ledger is kept between changes of the configuration if it does not depend on anything beside the
    connections but the limit `maxActive`, and if holders cannot disturb it. -/
theorem keptBetween_of (hR : Ledger P R)
    (beside : ∀ {w l} now source config closed, config.maxActive = w.pool.config.maxActive →
      R w l → R { w with now, pool := { w.pool with source, config, closed } } l)
    (call : ∀ {w l} conn call, R w l → R (w.run (H.call conn call)).2 l) :
    KeptBetween P H fun w => R w w.pool.wrappers where
  count f h := hR.count f h
  tryOut who startedAt budget r h := hR.rounds.tryOut who startedAt budget r h
  checkIn id h := hR.rounds.checkIn id h
  invalidateAll h := hR.rounds.invalidateAll h
  tolerate {w} n h := beside w.now w.pool.source
    { w.pool.config with badConnectionTolerance := n } w.pool.closed rfl h
  shut {w} h := beside w.now w.pool.source w.pool.config true rfl h
  advance {w} d h := beside (w.now + d) w.pool.source w.pool.config w.pool.closed rfl h
  call conn call' h := call conn call' h

/-- **A ledger is kept by everything that happens to a pool** if it does not depend on anything beside
    the connections, and if holders cannot disturb it. -/
theorem kept_of (hR : Ledger P R)
    (beside : ∀ {w l} now source config closed, R w l →
      R { w with now, pool := { w.pool with source, config, closed } } l)
    (call : ∀ {w l} conn call, R w l → R (w.run (H.call conn call)).2 l) :
    Kept P H fun w => R w w.pool.wrappers where
  toKeptBetween := hR.keptBetween_of (fun now source config closed _ h =>
    beside now source config closed h) call
  reconfigure {w} change h := by
    refine hR.rounds.invalidateAll ?_
    rw [World.onPool, Pool.apply_eq]
    exact beside w.now _ _ w.pool.closed h

end World.Ledger

end ConnPool
