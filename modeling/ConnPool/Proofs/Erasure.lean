/-
  Observing changes nothing.

  Drivers `P` with states `τ` lie `Over` drivers `D` with states `σ` if they answer alike, and if what
  `P` makes of a state looks, when part of it is forgotten, like what `D` makes of it.  Whatever a pool
  does over `P` it then does over `D`: there is one lemma for each operation, in the order in which the
  operations are made of each other, up to a whole run (`runAs_over`).

  Drivers that note every exchange lie over the drivers themselves.  So an observed run is a run: its
  users see the same, and it ends in the same machine when the log is forgotten (`observeAll_erase`).
-/
import ConnPool.Proofs.Observation

namespace ConnPool

variable {τ σ α β : Type}

/-! ## Drivers over drivers -/

/-- An action on the states of `P` does what an action on those of `D` does. -/
def Mirrors (f : τ → σ) (a' : Calls τ α) (a : Calls σ α) : Prop :=
  ∀ s, a (f s) = ((a' s).1, f (a' s).2)

/-- The drivers `P` do what `D` do, and may remember more. -/
structure Drivers.Over (f : τ → σ) (P : Drivers τ) (D : Drivers σ) : Prop where
  connect : ∀ conn url properties, Mirrors f (P.connect conn url properties)
    (D.connect conn url properties)
  call : ∀ conn call, Mirrors f (P.call conn call) (D.call conn call)

theorem mirrors_pure (f : τ → σ) (a : α) : Mirrors f (pure a) (pure a) := fun _ => rfl

theorem mirrors_bind {f : τ → σ} {a' : Calls τ α} {a : Calls σ α} {g' : α → Calls τ β}
    {g : α → Calls σ β} (h : Mirrors f a' a) (hg : ∀ x, Mirrors f (g' x) (g x)) :
    Mirrors f (a' >>= g') (a >>= g) := by
  intro s
  rw [Calls.bind_run, Calls.bind_run, h s]
  rcases a' s with ⟨r, t⟩
  cases r with
  | error e => rfl
  | ok x => exact hg x t

namespace Drivers

variable {f : τ → σ} {P : Drivers τ} {D : Drivers σ}

theorem quietly_over {a' : Calls τ α} {a : Calls σ α} (h : Mirrors f a' a) (s : τ) :
    quietly a (f s) = f (quietly a' s) :=
  congrArg Prod.snd (h s)

theorem rollbackIfManual_over (h : Over f P D) (conn : Conn) :
    Mirrors f (P.rollbackIfManual conn) (D.rollbackIfManual conn) := by
  refine mirrors_bind (h.call conn .autoCommit) fun automatic => ?_
  split
  · exact mirrors_pure f ()
  · exact h.call conn .rollback

theorem giveUp_over (h : Over f P D) (conn : Conn) (s : τ) :
    D.giveUp conn (f s) = f (P.giveUp conn s) := by
  unfold giveUp
  rw [quietly_over (rollbackIfManual_over h conn), quietly_over (h.call conn .close)]

theorem probe_over (h : Over f P D) (config : PoolConfig) (conn : Conn) :
    Mirrors f (P.probe config conn) (D.probe config conn) :=
  mirrors_bind (h.call conn (.execute config.pingQuery)) fun _ => rollbackIfManual_over h conn

theorem isHealthy_over (h : Over f P D) (config : PoolConfig) (now : Instant) (c : Wrapper)
    (s : τ) : D.isHealthy config now c (f s) =
      ((P.isHealthy config now c s).1, f (P.isHealthy config now c s).2) := by
  unfold isHealthy
  rw [h.call c.conn .isClosed s]
  rcases P.call c.conn .isClosed s with ⟨r, s₁⟩
  rcases r with e | closed
  · rfl
  · cases closed with
    | true => rfl
    | false =>
      by_cases hdue : probeDue config now c = true
      · simp only [hdue, if_true]
        rw [probe_over h config c.conn s₁]
        rcases P.probe config c.conn s₁ with ⟨r, s₂⟩
        cases r with
        | ok u => rfl
        | error e => exact congrArg (Prod.mk false) (quietly_over (h.call c.conn .close) s₂)
      · simp only [hdue, Bool.false_eq_true, if_false]

end Drivers

theorem SourceConfig.configure_over {f : τ → σ} {P : Drivers τ} {D : Drivers σ}
    (h : Drivers.Over f P D) (c : SourceConfig) (conn : Conn) :
    Mirrors f (c.configure P conn) (c.configure D conn) := by
  refine mirrors_bind ?_ fun _ => mirrors_bind ?_ fun _ => ?_
  · unfold setTimeout
    split
    · exact h.call conn _
    · exact mirrors_pure f ()
  · unfold setMode
    split
    · refine mirrors_bind (h.call conn .autoCommit) fun current => ?_
      split
      · exact mirrors_pure f ()
      · exact h.call conn _
    · exact mirrors_pure f ()
  · unfold setLevel
    split
    · exact h.call conn _
    · exact mirrors_pure f ()

theorem Source.newConnection_over {f : τ → σ} {P : Drivers τ} {D : Drivers σ}
    (h : Drivers.Over f P D) (src : Source) (who : Credentials) (conn : Conn) :
    Mirrors f (src.newConnection P who conn) (src.newConnection D who conn) := by
  intro s
  unfold newConnection
  rw [h.connect conn _ _ s]
  rcases P.connect conn src.config.url (src.config.propertiesFor who) s with ⟨r, s₁⟩
  cases r with
  | error e => rfl
  | ok u =>
    dsimp only
    rw [src.config.configure_over h conn s₁]
    rcases hr : src.config.configure P conn s₁ with ⟨r, s₂⟩
    cases r with
    | ok u => rfl
    | error e =>
      dsimp only
      rw [Drivers.quietly_over (h.call conn .close)]

/-! ## Worlds -/

/-- The world with part of the drivers' state forgotten. -/
def World.map (f : τ → σ) (w : World τ) : World σ :=
  { now := w.now, pool := w.pool, drivers := f w.drivers }

namespace World

variable {f : τ → σ} {P : Drivers τ} {D : Drivers σ}

theorem run_over {a' : Calls τ α} {a : Calls σ α} (h : Mirrors f a' a) (w : World τ) :
    (w.map f).run a = ((w.run a').1, (w.run a').2.map f) := by
  show ((a (f w.drivers)).1, { (w.map f) with drivers := (a (f w.drivers)).2 }) = _
  rw [h w.drivers]
  rfl

theorem discard_over (h : Drivers.Over f P D) (w : World τ) (c : Wrapper) :
    (w.map f).discard D c = (w.discard P c).map f := by
  show World.mk _ _ (D.giveUp c.conn (f w.drivers)) = _
  rw [Drivers.giveUp_over h]
  rfl

theorem foldl_discard_over (h : Drivers.Over f P D) : ∀ (l : List Wrapper) (w : World τ),
    l.foldl (discard D) (w.map f) = (l.foldl (discard P) w).map f
  | [], _ => rfl
  | c :: l, w => by
    rw [List.foldl_cons, List.foldl_cons, discard_over h, foldl_discard_over h l]

theorem invalidateAll_over (h : Drivers.Over f P D) (w : World τ) :
    (w.map f).invalidateAll D = (w.invalidateAll P).map f :=
  foldl_discard_over h _ (w.onPool fun p =>
    { p with active := [], idle := [], expected := p.source.identity })

theorem isFit_over (h : Drivers.Over f P D) (w : World τ) (c : Wrapper) :
    (w.map f).isFit D c = ((w.isFit P c).1, (w.isFit P c).2.map f) := by
  unfold isFit
  show (if w.pool.valid.contains c.id = true then
    ((D.isHealthy w.pool.config w.now c (f w.drivers)).1,
      { (w.map f) with drivers := (D.isHealthy w.pool.config w.now c (f w.drivers)).2 })
    else (false, w.map f)) = _
  rw [Drivers.isHealthy_over h]
  split <;> rfl

theorem reject_over (h : Drivers.Over f P D) (w : World τ) (c : Wrapper) :
    (w.map f).reject D c = (w.reject P c).map f :=
  discard_over h (w.onPool (·.count fun k => { k with badConnections := k.badConnections + 1 })) c

/-! ## Passes -/

/-- A candidate of a world, and of the world with part of the drivers' state forgotten. -/
theorem openCandidate_over (h : Drivers.Over f P D) (w : World τ) (who : Credentials) :
    (w.map f).openCandidate D who = ((w.openCandidate P who).1, (w.openCandidate P who).2.map f) := by
  unfold openCandidate
  have hrun := run_over (w.pool.source.newConnection_over h who
    ⟨w.pool.source.driver, w.pool.nextTicket⟩)
    (w.onPool fun p => { p with nextTicket := p.nextTicket + 1 })
  dsimp only
  rw [show ((w.map f).onPool fun p => { p with nextTicket := p.nextTicket + 1 }) =
    (w.onPool fun p => { p with nextTicket := p.nextTicket + 1 }).map f from rfl]
  rw [show (w.map f).pool = w.pool from rfl, hrun]
  rcases (w.onPool fun p => { p with nextTicket := p.nextTicket + 1 }).run
    (w.pool.source.newConnection P who ⟨w.pool.source.driver, w.pool.nextTicket⟩) with ⟨r, w₁⟩
  cases r <;> rfl

theorem reclaim_over (h : Drivers.Over f P D) (w : World τ) (c : Wrapper) :
    (w.map f).reclaim D c = ((w.reclaim P c).1, (w.reclaim P c).2.map f) := by
  have hback := Drivers.quietly_over (Drivers.rollbackIfManual_over h c.conn) w.drivers
  refine Prod.ext rfl ?_
  show World.mk _ _ (Drivers.quietly (D.rollbackIfManual c.conn) (f w.drivers)) = _
  rw [hback]
  rfl

theorem takeCandidate_over (h : Drivers.Over f P D) (w : World τ) (who : Credentials) :
    (w.map f).takeCandidate D who = ((w.takeCandidate P who).1, (w.takeCandidate P who).2.map f) := by
  unfold takeCandidate
  rw [show (w.map f).pool = w.pool from rfl, openCandidate_over h]
  cases w.pool.idle with
  | cons c rest => rfl
  | nil =>
    dsimp only
    split
    · rfl
    · cases w.pool.active with
      | nil => rfl
      | cons oldest rest =>
        dsimp only
        rw [show ((w.map f).onPool fun p => { p with active := rest }) =
          (w.onPool fun p => { p with active := rest }).map f from rfl, reclaim_over h]
        rw [show (w.map f).now = w.now from rfl]
        split <;> rfl

theorem isGood_over (h : Drivers.Over f P D) (w : World τ) (c : Wrapper) :
    (w.map f).isGood D c = ((w.isGood P c).1, (w.isGood P c).2.map f) := by
  unfold isGood
  rw [isFit_over h]
  rcases w.isFit P c with ⟨fit, w₁⟩
  cases fit with
  | false => rfl
  | true =>
    dsimp only
    rw [run_over (Drivers.rollbackIfManual_over h c.conn)]
    rcases w₁.run (P.rollbackIfManual c.conn) with ⟨r, w₂⟩
    cases r <;> rfl

theorem tryOut_over (h : Drivers.Over f P D) (who : Credentials) (startedAt : Instant) :
    ∀ (budget r : Nat) (w : World τ), (w.map f).tryOut D who startedAt budget r =
      ((w.tryOut P who startedAt budget r).1, (w.tryOut P who startedAt budget r).2.map f)
  | budget, r, w => by
    unfold tryOut
    rw [takeCandidate_over h]
    rcases w.takeCandidate P who with ⟨candidate, w₁⟩
    cases candidate with
    | failed e => rfl
    | mustWait => rfl
    | found c =>
      dsimp only
      rw [isGood_over h]
      rcases w₁.isGood P c with ⟨fit, w₂⟩
      cases fit with
      | true => rfl
      | false =>
        dsimp only
        rw [reject_over h, show ((w₂.reject P c).map f).pool = (w₂.reject P c).pool from rfl]
        split
        · cases budget with
          | zero => rfl
          | succ budget => exact tryOut_over h who startedAt budget (r + 1) (w₂.reject P c)
        · rfl

/-! ## Returns -/

theorem close_over (h : Drivers.Over f P D) (w : World τ) (c : Wrapper) :
    (w.map f).close D c = (w.close P c).map f := by
  show World.mk _ _ (Drivers.quietly (D.call c.conn .close) (f w.drivers)) = _
  rw [Drivers.quietly_over (h.call c.conn .close)]
  rfl

theorem takeBack_over (h : Drivers.Over f P D) (w : World τ) (c : Wrapper) :
    (w.map f).takeBack D c = (w.takeBack P c).map f := by
  unfold takeBack
  rw [isFit_over h]
  rcases w.isFit P c with ⟨fit, w₁⟩
  cases fit with
  | false => exact reject_over h w₁ c
  | true =>
    dsimp only
    rw [show ((w₁.map f).onPool (·.count fun k =>
        { k with checkoutTime := k.checkoutTime + ((w₁.map f).now - c.checkoutAt) })) =
      (w₁.countedBack c).map f from rfl, run_over (Drivers.rollbackIfManual_over h c.conn)]
    rw [show (w₁.onPool (·.count fun k =>
        { k with checkoutTime := k.checkoutTime + (w₁.now - c.checkoutAt) })) =
      w₁.countedBack c from rfl]
    rcases (w₁.countedBack c).run (P.rollbackIfManual c.conn) with ⟨r, w₂⟩
    cases r with
    | error e => exact close_over h w₂ c
    | ok u =>
      dsimp only
      rw [show (w₂.map f).pool = w₂.pool from rfl]
      split
      · rfl
      · exact close_over h w₂ c

theorem checkIn_over (h : Drivers.Over f P D) (w : World τ) (id : Nat) :
    (w.map f).checkIn D id = (w.checkIn P id).map f := by
  unfold checkIn
  rw [show (w.map f).pool = w.pool from rfl]
  cases w.pool.active.find? (fun c => c.id = id) with
  | none => rfl
  | some c =>
    exact takeBack_over h (w.onPool fun p =>
      { p with active := p.active.eraseP fun c => c.id = id }) c

theorem reconfigure_over (h : Drivers.Over f P D) (w : World τ) (change : Change) :
    (w.map f).reconfigure D change = (w.reconfigure P change).map f :=
  invalidateAll_over h (w.onPool (·.apply change))

end World

/-! ## Machines -/

/-- The machine with part of the drivers' state forgotten. -/
def Machine.map (f : τ → σ) (m : Machine τ) : Machine σ where
  world := m.world.map f
  waiters := m.waiters
  drains := m.drains
  handles := m.handles
  held := m.held
  gone := m.gone

/-- An event that does to drivers what another does to drivers below them. -/
inductive Event.Over (f : τ → σ) : Event τ → Event σ → Prop
  | acquire (key who) : Over f (.acquire key who) (.acquire key who)
  | resume (key) : Over f (.resume key) (.resume key)
  | abandon (key) : Over f (.abandon key) (.abandon key)
  | release (key) : Over f (.release key) (.release key)
  | use (key call) : Over f (.use key call) (.use key call)
  | reconfigure (change) : Over f (.reconfigure change) (.reconfigure change)
  | setTolerance (n) : Over f (.setTolerance n) (.setTolerance n)
  | shutDown (key) : Over f (.shutDown key) (.shutDown key)
  | look (key) : Over f (.look key) (.look key)
  | advance (d) : Over f (.advance d) (.advance d)
  | disturb {change' change} (h : ∀ s, change (f s) = f (change' s)) :
    Over f (.disturb change') (.disturb change)
  | letGo : Over f .letGo .letGo

namespace Machine

variable {f : τ → σ} {P H : Drivers τ} {D : Drivers σ}

theorem pass_over (h : Drivers.Over f P D) (m : Machine τ) (key : Key) (a : Acquisition) :
    (m.map f).pass D key a = ((m.pass P key a).1, (m.pass P key a).2.map f) := by
  have htry := World.tryOut_over h a.who a.startedAt (m.world.pool.config.badBudget - a.rejected)
    a.rejected m.world
  rcases ht : m.world.tryOut P a.who a.startedAt (m.world.pool.config.badBudget - a.rejected)
    a.rejected with ⟨r, w⟩
  rw [ht] at htry
  have htry' : (m.map f).world.tryOut D a.who a.startedAt
    ((m.map f).world.pool.config.badBudget - a.rejected) a.rejected = (r, w.map f) := htry
  have hclosed : (m.map f).world.pool.closed = m.world.pool.closed := rfl
  simp only [pass, htry', ht, hclosed]
  split
  · rfl
  · cases r with
    | handedOut hd => rfl
    | failed e => rfl
    | overflowed => rfl
    | mustWait r =>
      dsimp only
      split <;> rfl

theorem resume_over (h : Drivers.Over f P D) (m : Machine τ) (key : Key) :
    (m.map f).resume D key = ((m.resume P key).1, (m.resume P key).2.map f) := by
  have hkey : (m.map f).waiter? key = m.waiter? key := rfl
  have hnow : (m.map f).world.now = m.world.now := rfl
  simp only [resume, hkey, hnow]
  cases m.waiter? key with
  | none => rfl
  | some p =>
    dsimp only
    split
    · exact pass_over h ({ m with waiters := without key m.waiters }.onWorld (·.onPool (·.count
        fun k => { k with waitTime := k.waitTime + (m.world.now - p.since) }))) key p.acquisition
    · rfl

theorem lookAt_over (h : Drivers.Over f P D) (m : Machine τ) (key : Key) (deadline : Instant) :
    (m.map f).lookAt D key deadline =
      ((m.lookAt P key deadline).1, (m.lookAt P key deadline).2.map f) := by
  have hpool : (m.map f).world.pool = m.world.pool := rfl
  have hnow : (m.map f).world.now = m.world.now := rfl
  simp only [lookAt, hpool, hnow]
  split
  · refine Prod.ext rfl ?_
    show ({ (m.map f) with world := (m.world.map f).invalidateAll D } : Machine σ) = _
    rw [World.invalidateAll_over h]
    rfl
  · rfl

theorem look_over (h : Drivers.Over f P D) (m : Machine τ) (key : Key) :
    (m.map f).look D key = ((m.look P key).1, (m.look P key).2.map f) := by
  have hkey : (m.map f).drain? key = m.drain? key := rfl
  have hnow : (m.map f).world.now = m.world.now := rfl
  simp only [look, hkey, hnow]
  cases m.drain? key with
  | none => rfl
  | some d =>
    dsimp only
    split
    · exact lookAt_over h { m with drains := without key m.drains } key d.deadline
    · rfl

theorem release_over (h : Drivers.Over f P D) (m : Machine τ) (key : Key) :
    (m.map f).release D key = (m.release P key).map f := by
  have hkey : (m.map f).handle? key = m.handle? key := rfl
  simp only [release, hkey]
  cases m.handle? key with
  | none => rfl
  | some hd =>
    show wakeAll { (m.map f) with
      handles := without key m.handles, world := (m.world.map f).checkIn D hd.id } = _
    rw [World.checkIn_over h]
    rfl

theorem use_over (h : Drivers.Over f P D) (m : Machine τ) (key : Key) (call : RawCall) :
    (m.map f).use D key call = ((m.use P key call).1, (m.use P key call).2.map f) := by
  have hkey : (m.map f).handle? key = m.handle? key := rfl
  have hpool : (m.map f).world.pool = m.world.pool := rfl
  simp only [use, hkey, hpool]
  cases m.handle? key with
  | none => rfl
  | some hd =>
    dsimp only
    split
    · have hrun : (m.map f).world.run (D.call hd.conn call) = _ :=
        World.run_over (h.call hd.conn call) m.world
      rw [hrun]
      rcases m.world.run (P.call hd.conn call) with ⟨r, w⟩
      cases r <;> rfl
    · rfl

/-- **What an event does over `P` it does over `D`.** -/
theorem react_over (h : Drivers.Over f P D) {e' : Event τ} {e : Event σ} (he : e'.Over f e)
    (m : Machine τ) : (m.map f).react D e = ((m.react P e').1, (m.react P e').2.map f) := by
  cases he with
  | acquire key who => exact pass_over h m key _
  | resume key => exact resume_over h m key
  | abandon key => rfl
  | release key => exact Prod.ext rfl (release_over h m key)
  | use key call => exact use_over h m key call
  | reconfigure change =>
    refine Prod.ext rfl ?_
    show wakeAll { (m.map f) with world := (m.world.map f).reconfigure D change } = _
    rw [World.reconfigure_over h]
    rfl
  | setTolerance n => rfl
  | shutDown key =>
    exact lookAt_over h (m.onWorld (·.onPool fun p => { p with closed := true })).wakeAll key _
  | look key => exact look_over h m key
  | advance d => rfl
  | @disturb change' change hchange =>
    refine Prod.ext rfl ?_
    show ({ (m.map f) with world := ⟨_, _, change (f m.world.drivers)⟩ } : Machine σ) = _
    rw [hchange]
    rfl
  | letGo => rfl

theorem settle_over (h : Drivers.Over f P D) (m : Machine τ) :
    (m.map f).settle D = (m.settle P).map f := by
  have hunused : (m.map f).unused = m.unused := rfl
  have hgone : (m.map f).gone = m.gone := rfl
  simp only [settle, hunused, hgone]
  split
  · show ({ (m.map f) with world := (m.world.map f).invalidateAll D, gone := true } : Machine σ) = _
    rw [World.invalidateAll_over h]
    rfl
  · rfl

theorem stepAs_over (hP : Drivers.Over f P D) (hH : Drivers.Over f H D) {e' : Event τ}
    {e : Event σ} (he : e'.Over f e) (m : Machine τ) :
    (m.map f).step D e = ((m.stepAs P H e').1, (m.stepAs P H e').2.map f) := by
  have hadmits : (m.map f).admits e = m.admits e' := by
    cases he <;> rfl
  have hview : Drivers.Over f (e'.view P H) D := by
    cases he
    case use => exact hH
    all_goals exact hP
  simp only [step, stepAs, hadmits]
  split
  · rw [react_over hview he]
    exact Prod.ext rfl (settle_over hP _)
  · rfl

/-- **A run over `P` and `H` is a run over `D`** when part of the drivers' state is forgotten. -/
theorem runAs_over (hP : Drivers.Over f P D) (hH : Drivers.Over f H D) {es' : List (Event τ)}
    {es : List (Event σ)} (hes : List.Forall₂ (Event.Over f) es' es) :
    ∀ m : Machine τ, (m.map f).runAll D es = ((m.runAs P H es').1, (m.runAs P H es').2.map f) := by
  induction hes with
  | nil => exact fun _ => rfl
  | cons he _ ih =>
    intro m
    simp only [runAll, runAs, stepAs_over hP hH he, ih]

end Machine

/-! ## Observed runs -/

/-- Drivers that note every exchange lie over the drivers themselves. -/
theorem Drivers.observed_over (D : Drivers σ) (who : Party) :
    Drivers.Over Observed.drivers (D.observed who) D :=
  ⟨fun _ _ _ _ => rfl, fun _ _ _ => rfl⟩

theorem Event.observed_over (e : Event σ) : e.observed.Over Observed.drivers e := by
  cases e with
  | disturb change => exact .disturb fun _ => rfl
  | _ => constructor

/-- **Observing changes nothing.**  The users of an observed pool see what they see when nobody observes
    it, and without its log it ends in the same machine. -/
theorem Machine.observeAll_erase (D : Drivers σ) (source : Source) (config : PoolConfig) (s : σ)
    (es : List (Event σ)) :
    (start (.new source config) s).runAll D es =
      ((observeAll D source config s es).1,
        (observeAll D source config s es).2.map Observed.drivers) := by
  refine runAs_over (D.observed_over .pool) (D.observed_over .holder) ?_ (start _ ⟨s, []⟩)
  induction es with
  | nil => exact .nil
  | cons e es ih => exact .cons e.observed_over ih

end ConnPool
