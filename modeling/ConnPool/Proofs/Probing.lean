/-
  What a pool runs by itself.

  The only statement that a pool runs is the probe, and it runs it on a connection that has not been used
  for longer than the limit.  Seen from the drivers, a probe is a block of exchanges (`Probe`): the
  statement, the question whether there is work to be undone, and the rollback if there is; or as much
  of this as took place until something failed, and then a close.  All that a pool says is made up of
  such blocks and of exchanges that run nothing (`Probes`).  Since a block has its statement in front and
  no other, what follows on a statement in a log is the rest of its block (`Probes.block_of_statement`);
  this is how a failed probe is recognised wherever it stands.

  An examination probes what is due (`isHealthy_probes`), and what a search finds is due if the
  connection has been unused for so long, whether it comes from the idle list or is reclaimed
  (`StandsFor`).  So a pass hands out nothing that was due without a probe that went well
  (`tryOut_probes`).  `observe_probes` says this of every event, and with the time of the last use that
  can be read off the run it becomes `probed_before_use`.
-/
import ConnPool.Proofs.Conduct
import ConnPool.Proofs.LastUse
import ConnPool.Proofs.Opening

namespace ConnPool

variable {σ : Type}

/-! ## Probes in a log -/

/-- The statement that the pool runs, and the connection on which it runs it. -/
def Exchange.statement? : Exchange → Option (Conn × String)
  | .call .pool conn (.execute query) _ => some (conn, query)
  | _ => none

/-- What takes place of a probe that fails. -/
def ProbeFails (query : String) (conn : Conn) (said : List Exchange) : Prop :=
  ∃ automatic e, Stopped (fullProbe query conn automatic) e said

/-- The statement fails, or the question for the mode, or the rollback. -/
theorem probeFails_cases {query : String} {conn : Conn} {said : List Exchange}
    (h : ProbeFails query conn said) :
    ∃ e, said = [.call .pool conn (.execute query) (.error e)] ∨
      said = [.call .pool conn (.execute query) (.ok none), .call .pool conn .autoCommit (.error e)] ∨
      said = [.call .pool conn (.execute query) (.ok none),
        .call .pool conn .autoCommit (.ok (some false)), .call .pool conn .rollback (.error e)] := by
  obtain ⟨automatic, e, h⟩ := h
  refine ⟨e, ?_⟩
  rcases h.cons_cases with rfl | ⟨undone, hundone, rfl⟩
  · exact Or.inl rfl
  · rcases hundone.cons_cases with rfl | ⟨rolled, hrolled, rfl⟩
    · exact Or.inr (Or.inl rfl)
    · cases automatic with
      | true => exact absurd hrolled Stopped.not_nil
      | false =>
        rcases hrolled.cons_cases with rfl | ⟨_, hnothing, rfl⟩
        · exact Or.inr (Or.inr rfl)
        · exact absurd hnothing Stopped.not_nil

/-- A probe of a connection: it goes well, or it fails and the connection is closed at once. -/
inductive Probe (query : String) (conn : Conn) : List Exchange → Prop
  | passed (automatic : Bool) : Probe query conn (fullProbe query conn automatic)
  | failed {said : List Exchange} (fails : ProbeFails query conn said)
      (answer : Except ConnectionError (Option Bool)) :
      Probe query conn (said ++ [.call .pool conn .close answer])

/-- A probe begins with its statement, and there is no other in it. -/
theorem Probe.statement_first {query : String} {conn : Conn} {block : List Exchange}
    (h : Probe query conn block) : ∃ x rest, block = x :: rest ∧
      x.statement? = some (conn, query) ∧ ∀ y ∈ rest, y.statement? = none := by
  cases h with
  | passed automatic =>
    refine ⟨_, _, rfl, rfl, ?_⟩
    cases automatic <;> simp [undoing, Exchange.statement?]
  | failed fails answer =>
    obtain ⟨e, rfl | rfl | rfl⟩ := probeFails_cases fails
    all_goals exact ⟨_, _, rfl, rfl, by simp [Exchange.statement?]⟩

/-- Exchanges among which the pool runs statements only to probe, where `P` allows it. -/
inductive Probes (P : Conn → String → Prop) : List Exchange → Prop
  | nil : Probes P []
  | other {x : Exchange} {l : List Exchange} (nothing : x.statement? = none) (rest : Probes P l) :
      Probes P (x :: l)
  | probe {query : String} {conn : Conn} {block l : List Exchange} (allowed : P conn query)
      (probe : Probe query conn block) (rest : Probes P l) : Probes P (block ++ l)

namespace Probes

variable {P P' : Conn → String → Prop} {a b : List Exchange}

theorem append (ha : Probes P a) (hb : Probes P b) : Probes P (a ++ b) := by
  induction ha with
  | nil => exact hb
  | other nothing _ ih => exact .other nothing ih
  | probe allowed probe _ ih =>
    rw [List.append_assoc]
    exact .probe allowed probe ih

theorem mono (h : Probes P a) (hP : ∀ conn query, P conn query → P' conn query) : Probes P' a := by
  induction h with
  | nil => exact .nil
  | other nothing _ ih => exact .other nothing ih
  | probe allowed probe _ ih => exact .probe (hP _ _ allowed) probe ih

theorem of_nothing : ∀ {l : List Exchange}, (∀ x ∈ l, x.statement? = none) → Probes P l
  | [], _ => .nil
  | _ :: _, h => .other (h _ List.mem_cons_self)
      (of_nothing fun x hx => h x (List.mem_cons_of_mem _ hx))

theorem of_probe {query : String} {conn : Conn} {block : List Exchange} (allowed : P conn query)
    (probe : Probe query conn block) : Probes P block := by
  rw [← List.append_nil block]
  exact .probe allowed probe .nil

/-- A statement that comes after exchanges without any is found behind them. -/
theorem behind {x : Exchange} (hx : x.statement? ≠ none) {l tail : List Exchange} :
    ∀ {quiet front : List Exchange}, (∀ y ∈ quiet, y.statement? = none) →
      quiet ++ l = front ++ x :: tail → ∃ front', l = front' ++ x :: tail
  | [], front, _, h => ⟨front, h⟩
  | y :: quiet, [], hquiet, h => by
    obtain ⟨rfl, -⟩ := List.cons.inj h
    exact absurd (hquiet _ List.mem_cons_self) hx
  | y :: quiet, _ :: front, hquiet, h =>
    behind hx (fun y hy => hquiet y (List.mem_cons_of_mem _ hy)) (List.cons.inj h).2

/-- **What follows on a statement is the rest of its probe.** -/
theorem block_of_statement {l : List Exchange} (h : Probes P l) {front tail : List Exchange}
    {x : Exchange} {conn : Conn} {query : String} (hx : x.statement? = some (conn, query))
    (hl : l = front ++ x :: tail) : P conn query ∧
      ∃ block rest, Probe query conn block ∧ x :: tail = block ++ rest := by
  have hsome : x.statement? ≠ none := by
    rw [hx]
    exact nofun
  induction h generalizing front with
  | nil => cases front <;> nomatch hl
  | @other y l nothing _ ih =>
    cases front with
    | nil =>
      obtain ⟨rfl, -⟩ := List.cons.inj hl
      exact absurd nothing hsome
    | cons _ front => exact ih (List.cons.inj hl).2
  | @probe query' conn' block l allowed probe _ ih =>
    obtain ⟨y, quiet, rfl, hy, hquiet⟩ := probe.statement_first
    cases front with
    | nil =>
      obtain ⟨rfl, htail⟩ := List.cons.inj hl
      obtain ⟨rfl, rfl⟩ := Prod.mk.inj (Option.some.inj (hy.symm.trans hx))
      exact ⟨allowed, _, l, probe, hl.symm⟩
    | cons _ front =>
      obtain ⟨front', hl'⟩ := behind hsome hquiet (List.cons.inj hl).2
      exact ih hl'

/-- Every statement is allowed. -/
theorem allowed {l : List Exchange} (h : Probes P l) {x : Exchange} {conn : Conn} {query : String}
    (hmem : x ∈ l) (hx : x.statement? = some (conn, query)) : P conn query := by
  obtain ⟨front, tail, hl⟩ := List.append_of_mem hmem
  exact (h.block_of_statement hx hl).1

/-- **After a probe that fails the connection is closed**, at once. -/
theorem closed_of_fails {l : List Exchange} (h : Probes P l) {front back said : List Exchange}
    {conn : Conn} {query : String} (hfails : ProbeFails query conn said)
    (hl : l = front ++ said ++ back) :
    ∃ answer rest, back = .call .pool conn .close answer :: rest := by
  rw [List.append_assoc] at hl
  obtain ⟨e, hsaid⟩ := probeFails_cases hfails
  obtain ⟨block, rest, hprobe, hblock⟩ : ∃ block rest, Probe query conn block ∧
      said ++ back = block ++ rest := by
    rcases hsaid with rfl | rfl | rfl
    all_goals
      have hblock := h.block_of_statement (show _ = some (conn, query) from rfl) hl
      exact hblock.2
  cases hprobe with
  | passed automatic =>
    -- what failed in the one went well in the other
    rcases hsaid with rfl | rfl | rfl <;> cases automatic <;> simp [fullProbe, undoing] at hblock
  | failed fails answer =>
    obtain ⟨e', hsaid'⟩ := probeFails_cases fails
    refine ⟨answer, rest, ?_⟩
    rcases hsaid with rfl | rfl | rfl <;> rcases hsaid' with rfl | rfl | rfl <;>
      simp at hblock <;> exact hblock.2

end Probes

/-- The second log continues the first, and the pool runs statements only to probe what `P` allows. -/
def Probing (P : Conn → String → Prop) (a b : List Exchange) : Prop :=
  ∃ said, b = a ++ said ∧ Probes P said

namespace Probing

variable {P : Conn → String → Prop} {a b c : List Exchange}

theorem refl (a : List Exchange) : Probing P a a := ⟨[], (List.append_nil a).symm, .nil⟩

theorem trans (h : Probing P a b) (h' : Probing P b c) : Probing P a c := by
  obtain ⟨said, rfl, hsaid⟩ := h
  obtain ⟨said', rfl, hsaid'⟩ := h'
  exact ⟨said ++ said', List.append_assoc .., hsaid.append hsaid'⟩

/-- Nothing is run. -/
theorem of_continues (h : Continues (fun _ x => x.statement? = none) a b) : Probing P a b := by
  induction h with
  | refl => exact refl a
  | tail _ hx ih =>
    obtain ⟨x, hx, rfl⟩ := hx
    exact ih.trans ⟨[x], rfl, .other hx .nil⟩

end Probing

/-! ## What runs nothing -/

section Operations

variable {P : Conn → String → Prop} (D : Drivers σ)

namespace Drivers

theorem probing_rollbackIfManual (conn : Conn) (s : Observed σ) :
    Probing P s.log ((D.observed .pool).rollbackIfManual conn s).2.log :=
  .of_continues (says_rollbackIfManual D conn (fun _ _ => rfl) (fun _ _ => rfl) s)

theorem probing_isClosed (conn : Conn) (s : Observed σ) :
    Probing P s.log ((D.observed .pool).call conn .isClosed s).2.log :=
  .of_continues (says_call D conn .isClosed (fun _ _ => rfl) s)

theorem probing_close (conn : Conn) (s : Observed σ) :
    Probing P s.log (quietly ((D.observed .pool).call conn .close) s).log :=
  .of_continues (says_call D conn .close (fun _ _ => rfl) s)

theorem probing_giveUp (conn : Conn) (s : Observed σ) :
    Probing P s.log ((D.observed .pool).giveUp conn s).log :=
  (D.probing_rollbackIfManual conn s).trans (D.probing_close conn _)

end Drivers

/-- A source runs no statement on a connection that it opens. -/
theorem Source.probing_newConnection (src : Source) (who : Credentials) (conn : Conn)
    (s : Observed σ) :
    Probing P s.log (src.newConnection (D.observed .pool) who conn s).2.log := by
  obtain ⟨said, hlog, hcourse⟩ := src.newConnection_course D who conn s
  rcases hr : src.newConnection (D.observed .pool) who conn s with ⟨r, s'⟩
  rw [hr] at hlog hcourse
  have hsets : ∀ l : List Exchange, (∀ x ∈ l, SourceConfig.Sets conn x) →
      ∀ x ∈ l, x.statement? = none := by
    intro l hl x hx
    obtain ⟨call, answer, rfl, -, hquery⟩ := hl x hx
    cases call with
    | execute query => exact absurd rfl (hquery query)
    | _ => rfl
  refine ⟨said, hlog, .of_nothing ?_⟩
  cases hcourse with
  | refused e => exact List.forall_mem_singleton.2 rfl
  | opened current =>
    exact List.forall_mem_cons.2 ⟨rfl, hsets _ (src.config.sets_of_mem_settings conn current)⟩
  | givenUp current e said answer stopped =>
    refine List.forall_mem_cons.2 ⟨rfl, List.forall_mem_append.2 ⟨hsets _ ?_, ?_⟩⟩
    · exact SourceConfig.sets_of_stopped (src.config.sets_of_mem_settings conn current) stopped
    · exact List.forall_mem_singleton.2 rfl

/-! ## Examinations -/

/-- The log was continued by trying out a connection, for which a probe may have been due: it is probed
    if it is due, and if it is found `fit` the probe went well. -/
structure TriesOut (P : Conn → String → Prop) (query : String) (conn : Conn) (due fit : Bool)
    (said : List Exchange) : Prop where
  probes : Probes P said
  probed : fit = true → due = true → ∃ automatic, fullProbe query conn automatic <:+: said

theorem Drivers.isHealthy_probes (config : PoolConfig) (now : Instant) (c : Wrapper)
    (hP : probeDue config now c = true → P c.conn config.pingQuery) (s : Observed σ) :
    ∃ said, ((D.observed .pool).isHealthy config now c s).2.log = s.log ++ said ∧
      TriesOut P config.pingQuery c.conn (probeDue config now c)
        ((D.observed .pool).isHealthy config now c s).1 said := by
  obtain ⟨asked, hasked, hnothing⟩ := D.probing_isClosed (P := P) c.conn s
  rcases (D.observed .pool).isHealthy_cases config now c s with ⟨r, s₁, hr, -, e⟩ |
    ⟨s₁, hr, hdue, e⟩ | ⟨s₁, s₂, hr, hdue, hp, e⟩ | ⟨s₁, err, s₂, hr, hdue, hp, e⟩
  all_goals rw [hr] at hasked; rw [e]
  · exact ⟨asked, hasked, hnothing, nofun⟩
  · exact ⟨asked, hasked, hnothing, fun _ h => nomatch hdue.symm.trans h⟩
  · obtain ⟨automatic, hplan⟩ := D.follows_probe c.conn config s₁
    rw [hp] at hplan
    refine ⟨asked ++ fullProbe config.pingQuery c.conn automatic, ?_, ?_, fun _ _ => ⟨automatic, ?_⟩⟩
    · rw [hplan.log_of_ok, hasked, List.append_assoc]
    · exact hnothing.append (.of_probe (hP hdue) (.passed automatic))
    · exact (List.suffix_append _ _).isInfix
  · obtain ⟨automatic, hplan⟩ := D.follows_probe c.conn config s₁
    rw [hp] at hplan
    obtain ⟨said, hstopped, hlog⟩ := hplan.log_of_error
    have hfails : ProbeFails config.pingQuery c.conn said := ⟨automatic, err, hstopped⟩
    have hprobe := Probe.failed hfails
      (((D.observed .pool).call c.conn .close s₂).1.map (RawCall.report .close))
    refine ⟨_, ?_, hnothing.append (.of_probe (hP hdue) hprobe), nofun⟩
    show ((D.observed .pool).call c.conn .close s₂).2.log = _
    rw [D.log_of_call, hlog, hasked, List.append_assoc, List.append_assoc]

namespace World

variable {D} {w w' : World (Observed σ)} {c : Wrapper}

theorem isFit_probes {fit : Bool}
    (hP : Drivers.probeDue w.pool.config w.now c = true → P c.conn w.pool.config.pingQuery)
    (h : w.isFit (D.observed .pool) c = (fit, w')) : ∃ said,
      w'.drivers.log = w.drivers.log ++ said ∧
      TriesOut P w.pool.config.pingQuery c.conn (Drivers.probeDue w.pool.config w.now c) fit
        said := by
  have hexamined := D.isHealthy_probes w.pool.config w.now c hP w.drivers
  rcases isFit_cases _ h with ⟨-, e⟩ | ⟨-, rfl, rfl⟩
  · rw [e] at hexamined
    exact hexamined
  · exact ⟨[], (List.append_nil _).symm, .nil, nofun⟩

theorem isGood_probes {good : Bool}
    (hP : Drivers.probeDue w.pool.config w.now c = true → P c.conn w.pool.config.pingQuery)
    (h : w.isGood (D.observed .pool) c = (good, w')) : ∃ said,
      w'.drivers.log = w.drivers.log ++ said ∧
      TriesOut P w.pool.config.pingQuery c.conn (Drivers.probeDue w.pool.config w.now c) good
        said := by
  rcases isGood_cases _ h with ⟨rfl, hfit⟩ | ⟨w₁, r, hfit, hr, hgood⟩
  · exact isFit_probes hP hfit
  · obtain rfl := congrArg Prod.snd hr
    obtain ⟨said, hlog, htries⟩ := isFit_probes hP hfit
    obtain ⟨rolled, hrolled, hnothing⟩ := D.probing_rollbackIfManual (P := P) c.conn w₁.drivers
    refine ⟨said ++ rolled, ?_, htries.probes.append hnothing, fun _ hdue => ?_⟩
    · show ((D.observed .pool).rollbackIfManual c.conn w₁.drivers).2.log = _
      rw [hrolled, hlog, List.append_assoc]
    · obtain ⟨automatic, hprobed⟩ := htries.probed rfl hdue
      exact ⟨automatic, hprobed.trans (List.prefix_append _ _).isInfix⟩

/-! ## Returns, and the end -/

/-- The pool may probe a connection: a wrapper on one of its lists is around it, and a probe is due. -/
def Due (w : World σ) (conn : Conn) (query : String) : Prop :=
  query = w.pool.config.pingQuery ∧ ∃ c ∈ w.pool.wrappers,
    c.conn = conn ∧ Drivers.probeDue w.pool.config w.now c = true

theorem takeBack_probing
    (hP : Drivers.probeDue w.pool.config w.now c = true → P c.conn w.pool.config.pingQuery) :
    Probing P w.drivers.log (w.takeBack (D.observed .pool) c).drivers.log := by
  rcases w.takeBack_cases (D.observed .pool) c with ⟨w₁, hfit, e⟩ | ⟨w₁, w₂, hfit, hr, -, e⟩ |
    ⟨w₁, r, w₂, hfit, hr, -, e⟩
  all_goals
    obtain ⟨said, hlog, htries⟩ := isFit_probes hP hfit
    have hexamined : Probing P w.drivers.log w₁.drivers.log := ⟨said, hlog, htries.probes⟩
    rw [e]
  · exact hexamined.trans (D.probing_giveUp c.conn w₁.drivers)
  · obtain rfl := congrArg Prod.snd hr
    exact hexamined.trans (D.probing_rollbackIfManual c.conn (w₁.countedBack c).drivers)
  · obtain rfl := congrArg Prod.snd hr
    exact hexamined.trans ((D.probing_rollbackIfManual c.conn (w₁.countedBack c).drivers).trans
      (D.probing_close c.conn _))

/-- A return probes what comes back, if a probe is due. -/
theorem checkIn_probing (w : World (Observed σ)) (id : Nat) :
    Probing w.Due w.drivers.log (w.checkIn (D.observed .pool) id).drivers.log := by
  rcases w.checkIn_cases (D.observed .pool) id with ⟨-, e⟩ | ⟨c, front, back, ha, -, -, e⟩
  · rw [e]
    exact .refl _
  · have hc : c ∈ w.pool.wrappers := by
      refine List.mem_append_left _ ?_
      rw [ha]
      exact List.mem_append_right _ List.mem_cons_self
    rw [e]
    exact takeBack_probing (w := w.onPool fun p => { p with active := front ++ back })
      fun hdue => ⟨rfl, c, hc, rfl, hdue⟩

theorem foldl_discard_probing : ∀ (l : List Wrapper) (w : World (Observed σ)),
    Probing P w.drivers.log (l.foldl (discard (D.observed .pool)) w).drivers.log
  | [], _ => .refl _
  | c :: l, w => (D.probing_giveUp c.conn w.drivers).trans
      (foldl_discard_probing l (w.discard (D.observed .pool) c))

theorem invalidateAll_probing (w : World (Observed σ)) :
    Probing P w.drivers.log (w.invalidateAll (D.observed .pool)).drivers.log :=
  foldl_discard_probing (w.pool.active ++ w.pool.idle)
    (w.onPool fun p => { p with active := [], idle := [], expected := p.source.identity })

/-! ## A pass -/

/-- What a pass on the world can find: a wrapper around a connection from one of the lists, with its last
    use, or a new connection that is used for the first time now. -/
def StandsFor (w : World σ) (c : Wrapper) : Prop :=
  (∃ d ∈ w.pool.wrappers, d.conn = c.conn ∧ d.lastUsedAt = c.lastUsedAt) ∨
    w.pool.nextTicket ≤ c.conn.ticket ∧ c.lastUsedAt = w.now

/-- What is found may be probed if it is due; what was just opened is not. -/
theorem StandsFor.due {w : World σ} {c : Wrapper} (h : w.StandsFor c)
    (hdue : Drivers.probeDue w.pool.config w.now c = true) : w.Due c.conn w.pool.config.pingQuery := by
  rcases h with ⟨d, hd, hconn, hlast⟩ | ⟨-, hnow⟩
  · refine ⟨rfl, d, hd, hconn, ?_⟩
    rw [Drivers.probeDue, hlast]
    exact hdue
  · simp only [Drivers.probeDue, Bool.and_eq_true, decide_eq_true_eq] at hdue
    rw [hnow, Duration.sub_self] at hdue
    exact absurd hdue.2 (Duration.not_lt_zero _)

/-- What a search finds while a pass on `w` is under way stands for something there. -/
theorem Underway.standsFor {w w₁ w₂ : World (Observed σ)} {who : Credentials} {c : Wrapper}
    (h : Underway w who w₁) (ht : w₁.takeCandidate (D.observed .pool) who = (.found c, w₂)) :
    w.StandsFor c := by
  rcases takeCandidate_found (D.observed .pool) ht with ⟨rest, hi, -⟩ | ⟨-, -, rfl, s, -, -⟩ |
    ⟨-, oldest, rest, ha, -, -, rfl, -⟩
  · refine Or.inl ⟨c, List.mem_append_right _ (h.pruned.idle.subset ?_), rfl, rfl⟩
    rw [hi]
    exact List.mem_cons_self
  · exact Or.inr ⟨h.nextTicket, h.now⟩
  · refine Or.inl ⟨oldest, List.mem_append_left _ (h.pruned.active.subset ?_), rfl, rfl⟩
    rw [ha]
    exact List.mem_cons_self

/-- A search runs no statement. -/
theorem takeCandidate_probing {w₁ w₂ : World (Observed σ)} {who : Credentials} {r : Candidate}
    (ht : w₁.takeCandidate (D.observed .pool) who = (r, w₂)) :
    Probing P w₁.drivers.log w₂.drivers.log := by
  have hopens := w₁.pool.source.probing_newConnection D (P := P) who w₁.nextConn w₁.drivers
  cases r with
  | found c =>
    rcases takeCandidate_found (D.observed .pool) ht with ⟨rest, -, rfl⟩ | ⟨-, -, -, s, hs, rfl⟩ |
      ⟨-, oldest, rest, -, -, -, -, rfl⟩
    · exact .refl _
    · rw [hs] at hopens
      exact hopens
    · exact D.probing_rollbackIfManual oldest.conn w₁.drivers
  | mustWait =>
    rw [(takeCandidate_mustWait (D.observed .pool) ht).1]
    exact .refl _
  | failed e =>
    rcases takeCandidate_failed (D.observed .pool) ht with ⟨-, -, cause, s, hs, -, rfl⟩ |
      ⟨-, -, -, -, rfl⟩
    · rw [hs] at hopens
      exact hopens
    · exact .refl _

/-- A connection that is handed out stands for something on the world before, and was probed with success
    if a probe was due. -/
def Examined (w : World (Observed σ)) (h : Handle) (said : List Exchange) : Prop :=
  ∃ c, w.StandsFor c ∧ c.conn = h.conn ∧
    (Drivers.probeDue w.pool.config w.now c = true →
      ∃ automatic, fullProbe w.pool.config.pingQuery h.conn automatic <:+: said)

variable (D) in
/-- **A pass probes what is due**, and it hands out nothing whose probe did not go well. -/
theorem tryOut_probes (hw : w.pool.Fits) (who : Credentials) (startedAt : Instant) (budget r : Nat) :
    ∃ said, (w.tryOut (D.observed .pool) who startedAt budget r).2.drivers.log =
        w.drivers.log ++ said ∧ Probes w.Due said ∧
      ∀ h, (w.tryOut (D.observed .pool) who startedAt budget r).1 = .handedOut h →
        w.Examined h said := by
  refine tryOut_rule (D.observed .pool)
    (I := fun _ w₁ => Underway w who w₁ ∧ Probing w.Due w.drivers.log w₁.drivers.log)
    (Q := fun e w' => ∃ said, w'.drivers.log = w.drivers.log ++ said ∧ Probes w.Due said ∧
      ∀ h, e = .handedOut h → w.Examined h said)
    ?failed ?wait ?good ?bad ?exhausted ?overflowed budget r w ⟨Underway.refl hw, .refl _⟩
  case failed =>
    rintro r w₁ e w' ⟨-, hprobing⟩ ht
    obtain ⟨said, hlog, hprobes⟩ := hprobing.trans (takeCandidate_probing ht)
    exact ⟨said, hlog, hprobes, nofun⟩
  case wait =>
    rintro r w₁ w' ⟨-, hprobing⟩ ht
    obtain ⟨said, hlog, hprobes⟩ := hprobing.trans (takeCandidate_probing ht)
    exact ⟨said, hlog, hprobes, nofun⟩
  case exhausted =>
    rintro r w₁ ⟨-, said, hlog, hprobes⟩
    exact ⟨said, hlog, hprobes, nofun⟩
  case overflowed =>
    rintro r w₁ ⟨-, said, hlog, hprobes⟩
    exact ⟨said, hlog, hprobes, nofun⟩
  case good =>
    intro r w₁ c w₂ w₃ ⟨hunderway, hprobing⟩ ht hg
    have hstands := hunderway.standsFor ht
    have hfound := hunderway.found hw ht
    obtain ⟨said, hlog, hprobes⟩ := hprobing.trans (takeCandidate_probing ht)
    have hsame : Drivers.probeDue w₂.pool.config w₂.now c = Drivers.probeDue w.pool.config w.now c := by
      rw [hfound.pruned.config, hfound.now]
    obtain ⟨tried, htried, htries⟩ := isGood_probes (P := w.Due)
      (fun hdue => by rw [hfound.pruned.config]; exact hstands.due (hsame ▸ hdue)) hg
    refine ⟨said ++ tried, ?_, hprobes.append htries.probes, fun h he => ?_⟩
    · show w₃.drivers.log = _
      rw [htried, hlog, List.append_assoc]
    · obtain rfl := PassEnd.handedOut.inj he
      refine ⟨c, hstands, rfl, fun hdue => ?_⟩
      obtain ⟨automatic, hprobed⟩ := htries.probed rfl (hsame.trans hdue)
      rw [hfound.pruned.config] at hprobed
      exact ⟨automatic, hprobed.trans (List.suffix_append _ _).isInfix⟩
  case bad =>
    intro r w₁ c w₂ w₃ ⟨hunderway, hprobing⟩ ht hg
    have hstands := hunderway.standsFor ht
    have hfound := hunderway.found hw ht
    refine ⟨(hfound.tried hg).rejected, ?_⟩
    obtain ⟨tried, htried, htries⟩ := isGood_probes (P := w.Due) (fun hdue => by
      rw [hfound.pruned.config]
      rw [hfound.pruned.config, hfound.now] at hdue
      exact hstands.due hdue) hg
    exact (hprobing.trans (takeCandidate_probing ht)).trans
      (Probing.trans ⟨tried, htried, htries.probes⟩ (D.probing_giveUp c.conn w₃.drivers))

end World

/-! ## An event -/

namespace Machine

variable {D}

/-- What an event says to the drivers: the pool probes what is due, and what is handed out was
    examined. -/
def Says (m : Machine (Observed σ)) (o : Outcome) (m' : Machine (Observed σ)) : Prop :=
  ∃ said, m'.log = m.log ++ said ∧ Probes m.world.Due said ∧
    ∀ h, o = .acquired h → m.world.Examined h said

theorem says_of_probing {m m' : Machine (Observed σ)} {o : Outcome} (hout : ∀ h, o ≠ .acquired h)
    (h : Probing m.world.Due m.log m'.log) : m.Says o m' := by
  obtain ⟨said, hlog, hprobes⟩ := h
  exact ⟨said, hlog, hprobes, fun hd ho => absurd ho (hout hd)⟩

theorem Deed.says {m m' : Machine (Observed σ)} {e : Event σ} {o : Outcome} (hd : m.Deed D e o m')
    (hfits : m.world.pool.Fits) : m.Says o m' := by
  cases hd with
  | aside out alike => exact says_of_probing out (alike.log ▸ .refl _)
  | @handsOut _ key a f budget h w waiters serves pass =>
    obtain ⟨said, hlog, hprobes, hexamined⟩ := World.tryOut_probes D
      (w := m.world.onPool (·.count f)) ⟨hfits.idle, hfits.total⟩ a.who a.startedAt budget a.rejected
    rw [pass] at hlog hexamined
    refine ⟨said, hlog, hprobes, fun h' ho => ?_⟩
    obtain rfl := Outcome.acquired.inj ho
    exact hexamined h rfl
  | @fails _ _ key a f g budget r w waiters serves out pass nothing =>
    obtain ⟨said, hlog, hprobes, -⟩ := World.tryOut_probes D
      (w := m.world.onPool (·.count f)) ⟨hfits.idle, hfits.total⟩ a.who a.startedAt budget a.rejected
    rw [pass] at hlog
    exact says_of_probing out ⟨said, hlog, hprobes⟩
  | @release key h handle => exact says_of_probing nofun (m.world.checkIn_probing h.id)
  | @use key call h o handle valid out =>
    refine says_of_probing out (.of_continues ?_)
    exact Drivers.says_call D h.conn call (fun _ _ => rfl) m.world.drivers
  | reconfigure change =>
    exact says_of_probing nofun (World.invalidateAll_probing (m.world.onPool (·.apply change)))
  | @closesAll e forceClosed m' alike =>
    refine says_of_probing nofun ?_
    rw [← alike.log]
    exact World.invalidateAll_probing m'.world

variable (D) in
/-- **What an event says**: the pool probes what is due, and nothing else is run by it. -/
theorem observe_says {m : Machine (Observed σ)} (e : Event σ) (hfits : m.world.pool.Fits) :
    m.Says (m.observe D e).1 (m.observe D e).2 := by
  obtain ⟨m', hdeed, hafter⟩ := m.observe_deed D e
  rcases hafter with hsame | ⟨hunused, hclosed⟩
  · rw [hsame]
    exact hdeed.says hfits
  · obtain ⟨said, hlog, hprobes, -⟩ := hdeed.says hfits
    rw [hclosed]
    exact says_of_probing (hdeed.nothing_of_unused hunused)
      (Probing.trans ⟨said, hlog, hprobes⟩ (World.invalidateAll_probing m'.world))

end Machine

end Operations

/-! ## Every run -/

namespace Machine

section Runs

variable (D : Drivers σ) (source : Source) (config : PoolConfig) (s : σ)

theorem says_reached (es : List (Event σ)) (e : Event σ) :
    (reached D source config s es).Says ((reached D source config s es).observe D e).1
      (reached D source config s (es ++ [e])) := by
  rw [reached_concat]
  exact observe_says D e (fits_reached D source config s es)

/-- All statements that a pool ever runs are probes. -/
theorem probes_reached (es : List (Event σ)) :
    Probes (fun _ _ => True) (reached D source config s es).log := by
  induction es using List.reverseRecOn with
  | nil => exact .nil
  | append_singleton es e ih =>
    obtain ⟨said, hlog, hprobes, -⟩ := says_reached D source config s es e
    rw [hlog]
    exact ih.append (hprobes.mono fun _ _ _ => trivial)

variable {D source config s} {es : List (Event σ)} {e : Event σ}

/-- A connection that is still to be opened has not been used. -/
theorem lastUse_of_new {conn : Conn}
    (h : (reached D source config s es).world.pool.nextTicket ≤ conn.ticket) :
    lastUse D source config s es conn = none := by
  rw [lastUse_eq_none_iff]
  intro hopened
  have hbelow := (accounts_reached D source config s es).below conn hopened
  omega

/-- What stands for something before an event was last used when its connection was, or it is new. -/
theorem unusedFor_of_standsFor {c : Wrapper} (h : (reached D source config s es).world.StandsFor c) :
    unusedFor D source config s es c.conn =
      (reached D source config s es).world.now - c.lastUsedAt := by
  rcases h with ⟨d, hd, hconn, hlast⟩ | ⟨hnew, hnow⟩
  · rw [← hconn, ← hlast, unusedFor_of_listed D source config s hd]
  · rw [unusedFor, lastUse_of_new hnew, hnow, Duration.sub_self]

/-- A wrapper that joined the idle list in an event bears the time of that event. -/
theorem checkoutAt_of_listedSince {past : List (Event σ)} {e' : Event σ} {c : Wrapper}
    (h : ListedSince D source config s Pool.idle past e' es c) :
    c.checkoutAt = (reached D source config s past).world.now := by
  have hstamps := observe_stamps D (reached D source config s past) e'
  have hc := h.stayed _ (List.prefix_refl _) h.took
  rw [reached_concat] at hc
  obtain ⟨key, hd, c₀, -, -, -, -, rfl⟩ := (hstamps.idle c hc).resolve_left h.joined
  rfl

variable (D source config s es e)

/-- How a pool probes in the event `e` after the events `es`, when `said` is what passes between it and
    the drivers. -/
structure ProbesBeforeUse (said : List Exchange) : Prop where
  log : (reached D source config s (es ++ [e])).log = (reached D source config s es).log ++ said
  /-- What is handed out after it was not used for too long is probed first: the statement succeeds, and
      what it did is rolled back, if the connection does not commit by itself. -/
  probed : ∀ h, ((reached D source config s es).observe D e).1 = .acquired h →
    (reached D source config s es).world.pool.config.pingEnabled = true →
    (reached D source config s es).world.pool.config.pingNotUsedFor <
      unusedFor D source config s es h.conn →
    ∃ automatic, fullProbe (reached D source config s es).world.pool.config.pingQuery h.conn automatic
      <:+: said
  /-- In particular, what was idle for too long is. -/
  idled : ∀ h, ((reached D source config s es).observe D e).1 = .acquired h →
    (reached D source config s es).world.pool.config.pingEnabled = true →
    ∀ past e' c, ListedSince D source config s Pool.idle past e' es c → c.conn = h.conn →
    (reached D source config s es).world.pool.config.pingNotUsedFor <
      (reached D source config s es).world.now - (reached D source config s past).world.now →
    ∃ automatic, fullProbe (reached D source config s es).world.pool.config.pingQuery h.conn automatic
      <:+: said
  /-- Only what is opened in this event has no last use. -/
  opened : ∀ h, ((reached D source config s es).observe D e).1 = .acquired h →
    lastUse D source config s es h.conn = none → h.conn ∈ openedIn said
  /-- What is handed out before the limit is reached is not probed. -/
  spared : ∀ h, ((reached D source config s es).observe D e).1 = .acquired h →
    ¬ (reached D source config s es).world.pool.config.pingNotUsedFor <
      unusedFor D source config s es h.conn →
    ∀ x ∈ said, ∀ query, x.statement? ≠ some (h.conn, query)
  /-- When a probe of a connection has failed, or what it did could not be rolled back, the connection
      was closed at once, and it is not handed out. -/
  failed : ∀ query conn fails front back, ProbeFails query conn fails →
    (reached D source config s (es ++ [e])).log = front ++ fails ++ back →
    (∃ answer rest, back = .call .pool conn .close answer :: rest) ∧
    ∀ h, ((reached D source config s es).observe D e).1 = .acquired h → h.conn ≠ conn
  /-- A pool that does not probe runs no statement on any connection. -/
  silent : (reached D source config s es).world.pool.config.pingEnabled = false →
    ∀ x ∈ said, x.statement? = none

/-- **A connection that was not used for too long is probed before it is used**, in every run. -/
theorem probed_before_use : ∃ said, ProbesBeforeUse D source config s es e said := by
  obtain ⟨said, hlog, hprobes, hexamined⟩ := says_reached D source config s es e
  have hprobed : ∀ h, ((reached D source config s es).observe D e).1 = .acquired h →
      (reached D source config s es).world.pool.config.pingEnabled = true →
      (reached D source config s es).world.pool.config.pingNotUsedFor <
        unusedFor D source config s es h.conn →
      ∃ automatic, fullProbe (reached D source config s es).world.pool.config.pingQuery h.conn automatic
        <:+: said := by
    intro h hout hping hlimit
    obtain ⟨c, hstands, hconn, hdue⟩ := hexamined h hout
    rw [← hconn, unusedFor_of_standsFor hstands] at hlimit
    refine hdue ?_
    rw [Drivers.probeDue, hping, Bool.true_and]
    exact decide_eq_true hlimit
  refine ⟨said, hlog, hprobed, ?idled, ?opened, ?spared, ?failed, ?silent⟩
  case idled =>
    intro h hout hping past e' c hlisted hconn hlimit
    refine hprobed h hout hping ?_
    have hc : c ∈ (reached D source config s es).world.pool.wrappers :=
      List.mem_append_right _ (hlisted.stayed es hlisted.took (List.prefix_refl _))
    have hlast := lastUsed_le_checkout D source config s es c hc
    rw [checkoutAt_of_listedSince hlisted] at hlast
    rw [← hconn, unusedFor_of_listed D source config s hc]
    exact Nat.lt_of_lt_of_le hlimit (Duration.sub_le_sub_left hlast _)
  case opened =>
    intro h hout hnone
    have hopened : h.conn ∈ openedIn (reached D source config s (es ++ [e])).log := by
      obtain ⟨c, hc, hconn, -⟩ := listed_of_hands D source config s
        (Outcome.hands_iff.2 ⟨h, hout, rfl⟩)
      rw [← hconn]
      exact (listed_of_accounts (accounts_reached D source config s (es ++ [e])) hc).1
    rw [hlog, openedIn_append] at hopened
    refine (List.mem_append.1 hopened).resolve_left ?_
    exact (lastUse_eq_none_iff D source config s es h.conn).1 hnone
  case spared =>
    intro h hout hlimit x hx query hstatement
    obtain ⟨-, d, hd, hconn, hdue⟩ := hprobes.allowed hx hstatement
    simp only [Drivers.probeDue, Bool.and_eq_true, decide_eq_true_eq] at hdue
    rw [← hconn, unusedFor_of_listed D source config s hd] at hlimit
    exact hlimit hdue.2
  case failed =>
    intro query conn fails front back hfails hwhole
    obtain ⟨answer, rest, rfl⟩ :=
      (probes_reached D source config s (es ++ [e])).closed_of_fails hfails hwhole
    refine ⟨⟨answer, rest, rfl⟩, fun h hout he => ?_⟩
    obtain ⟨c, hc, hconn, -⟩ := listed_of_hands D source config s
      (Outcome.hands_iff.2 ⟨h, hout, he⟩)
    have hnot := (listed_of_accounts (accounts_reached D source config s (es ++ [e])) hc).2
    refine hnot ?_
    rw [hwhole, closedIn_append, hconn]
    exact List.mem_append_right _ List.mem_cons_self
  case silent =>
    intro hping x hx
    rcases hstatement : x.statement? with _ | ⟨conn, query⟩
    · rfl
    · obtain ⟨-, d, -, -, hdue⟩ := hprobes.allowed hx hstatement
      rw [Drivers.probeDue, hping] at hdue
      exact absurd hdue Bool.false_ne_true

end Runs

end Machine

end ConnPool
