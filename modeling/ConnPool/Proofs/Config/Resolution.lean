/-
  Checking a configuration and resolving it agree.

  A configuration is gone through twice: it is checked when it is read, and its defaults are filled in
  when a pool or an account is made of it.  Both read the same texts as spans, in the same order
  (`durations`).  Resolving does nothing else that can fail, so it fails with what the reading says
  (`ofConfig_reads`).  A check looks at three rules in between: it says that one of them is broken, or
  what the reading says (`validate_reads`).  So no error of the one can be hidden by another error of
  the reading in the other.
-/
import ConnPool.Check
import ConnPool.Pool.Basic
import ConnPool.Proofs.Config.RoundTrip
import ConnPool.Proofs.Duration.Grammar

namespace ConnPool

namespace Config

/-! ## Reading the spans -/

/-- The settings of a pool section that hold spans, in the order in which they are read. -/
def poolDurations (p : PoolSettings) : List (DurationField × Option String) :=
  [(.maxCheckoutTime, p.maxCheckoutTime), (.timeToWait, p.timeToWait),
   (.pingNotUsedFor, p.pingNotUsedFor), (.drainTimeout, p.drainTimeout)]

/-- The settings of a configuration that hold spans, in the order in which they are read. -/
def durations (config : Config) : List (DurationField × Option String) :=
  (.networkTimeout, config.source.networkTimeout) :: config.pool.elim [] poolDurations

/-- Reads settings one behind the other, up to the first that cannot be read. -/
def readAll : List (DurationField × Option String) → Except ConfigError Unit
  | [] => .ok ()
  | (field, text) :: rest => do
    let _ ← readDuration? field text
    readAll rest

/-- A setting that may be missing is missing, or it is read, or it is named with its text. -/
theorem readDuration?_cases (field : DurationField) (text : Option String) :
    (text = none ∧ readDuration? field text = .ok none) ∨
    (∃ s d, text = some s ∧ Duration.readSetting s = some d ∧
      readDuration? field text = .ok (some d)) ∨
    (∃ s, text = some s ∧ readDuration? field text = .error (.invalidDuration field.path s)) := by
  cases text with
  | none => exact .inl ⟨rfl, rfl⟩
  | some s =>
    cases hread : Duration.readSetting s with
    | some d =>
      have hspan : readSpan field.path s = .ok d := readSpan_eq_ok_iff.2 hread
      exact .inr (.inl ⟨s, d, rfl, hread, congrArg (Except.map some) hspan⟩)
    | none =>
      have hspan : readSpan field.path s = .error (.invalidDuration field.path s) :=
        readSpan_eq_error_iff.2 ⟨rfl, hread⟩
      exact .inr (.inr ⟨s, rfl, congrArg (Except.map some) hspan⟩)

/-- **Whatever cannot be read is named with its text.** -/
theorem readAll_error : ∀ {l : List (DurationField × Option String)} {e : ConfigError},
    readAll l = .error e → ∃ field text, (field, some text) ∈ l ∧ e = .invalidDuration field.path text
  | [], _, h => nomatch h
  | (field, text) :: rest, e, h => by
    have hlater : readAll rest = .error e → ∃ f t, (f, some t) ∈ (field, text) :: rest ∧
        e = .invalidDuration f.path t := by
      intro hrest
      obtain ⟨f, t, hmem, he⟩ := readAll_error hrest
      exact ⟨f, t, List.mem_cons_of_mem _ hmem, he⟩
    rw [readAll] at h
    rcases readDuration?_cases field text with ⟨-, hread⟩ | ⟨_, _, -, -, hread⟩ | ⟨s, rfl, hread⟩
    · rw [hread] at h
      exact hlater h
    · rw [hread] at h
      exact hlater h
    · rw [hread] at h
      exact ⟨field, s, List.mem_cons_self, (Except.error.inj h).symm⟩

/-! ## Resolving -/

/-- One span is read, and whatever comes of it, what is left to do reads `rest`. -/
theorem map_readDuration? {field : DurationField} {text : Option String}
    {f : Option Duration → Except ConfigError α} {rest : Except ConfigError Unit}
    (h : ∀ d, (f d).map (fun _ => ()) = rest) :
    (readDuration? field text >>= f).map (fun _ => ()) =
      (readDuration? field text >>= fun _ => rest) := by
  cases readDuration? field text with
  | error e => rfl
  | ok d => exact h d

/-- **A pool section is resolved** when its spans can be read, and fails as reading them fails. -/
theorem ofSettings_reads (p : PoolSettings) :
    (PoolConfig.ofSettings p).map (fun _ => ()) = readAll (poolDurations p) :=
  map_readDuration? fun _ => map_readDuration? fun _ => map_readDuration? fun _ =>
    map_readDuration? fun _ => rfl

/-- **A configuration is resolved** when its spans can be read, and fails as reading them fails. -/
theorem ofConfig_reads (config : Config) :
    (Resolved.ofConfig config).map (fun _ => ()) = readAll config.durations := by
  simp only [Resolved.ofConfig, SourceConfig.ofSettings, bind_assoc]
  refine map_readDuration? fun _ => ?_
  cases config.pool with
  | none => rfl
  | some p =>
    refine Eq.trans ?_ (ofSettings_reads p)
    show Except.map _ (PoolConfig.ofSettings p >>= fun pool => _) = _
    cases PoolConfig.ofSettings p <;> rfl

/-! ## Checking -/

/-- What a check asks of a pool section besides its spans. -/
structure KeepsRules (p : PoolSettings) : Prop where
  maxActive : p.maxActive ≠ some 0
  pingQuery : lacksPingQuery p = false

theorem validatePool_eq (p : PoolSettings) : validatePool p =
    if p.maxActive = some 0 then .error (.invalid .noActiveConnections)
    else readAll (poolDurations p) >>= fun _ =>
      if lacksPingQuery p then .error (.invalid .missingPingQuery) else .ok () := by
  simp only [validatePool, poolDurations, readAll, bind_assoc]
  rfl

/-- **A pool section is checked**: a rule is broken, or reading its spans decides, and where all of them
are read no rule is broken. -/
theorem validatePool_reads (p : PoolSettings) :
    (∃ rule, validatePool p = .error (.invalid rule)) ∨
    (validatePool p = readAll (poolDurations p) ∧ (validatePool p = .ok () → KeepsRules p)) := by
  rw [validatePool_eq]
  by_cases hactive : p.maxActive = some 0
  · exact .inl ⟨.noActiveConnections, if_pos hactive⟩
  rw [if_neg hactive]
  cases readAll (poolDurations p) with
  | error e => exact .inr ⟨rfl, fun h => nomatch h⟩
  | ok _ =>
    -- the statement of a probe is looked at last
    cases hquery : lacksPingQuery p with
    | true => exact .inl ⟨.missingPingQuery, rfl⟩
    | false => exact .inr ⟨rfl, fun _ => ⟨hactive, hquery⟩⟩

/-- **A configuration is checked**: a rule is broken, or reading its spans decides, and where all of them
are read no rule is broken. -/
theorem validate_reads (config : Config) :
    (∃ rule, config.validate = .error (.invalid rule)) ∨
    (config.validate = readAll config.durations ∧
      (config.validate = .ok () → ∀ p ∈ config.pool, KeepsRules p)) := by
  unfold validate
  simp only [durations, readAll]
  by_cases hurl : Text.isBlankText config.source.url = true
  · exact .inl ⟨.emptyUrl, by rw [if_pos hurl]; rfl⟩
  rw [if_neg hurl]
  cases readDuration? .networkTimeout config.source.networkTimeout with
  | error e => exact .inr ⟨rfl, fun h => nomatch h⟩
  | ok d =>
    cases config.pool with
    | none => exact .inr ⟨rfl, fun _ p hp => nomatch hp⟩
    | some p =>
      refine (validatePool_reads p).imp id fun ⟨hreads, hrules⟩ => ⟨hreads, fun h q hq => ?_⟩
      obtain rfl := Option.some.inj hq
      exact hrules h

/-! ## What a configuration resolves to -/

theorem ofConfig_ok {config : Config} {r : Resolved} (h : Resolved.ofConfig config = .ok r) :
    SourceConfig.ofSettings config.source = .ok r.source ∧
      PoolConfig.ofSettings? config.pool = .ok r.pool := by
  obtain ⟨source, hsource, h⟩ := bind_ok h
  obtain ⟨pool, hpool, h⟩ := bind_ok h
  obtain rfl := Except.ok.inj h
  exact ⟨hsource, hpool⟩

/-- Where probing is switched on, a pool section that keeps the rules has a statement to probe with. -/
theorem KeepsRules.query {p : PoolSettings} (h : KeepsRules p) (hon : p.pingEnabled = some true) :
    ∃ query, p.pingQuery = some query ∧ ¬ Text.Blanks query.toList := by
  have hlacks := h.pingQuery
  rw [lacksPingQuery, hon] at hlacks
  cases hquery : p.pingQuery with
  | none =>
    rw [hquery] at hlacks
    exact nomatch hlacks
  | some query =>
    refine ⟨query, rfl, fun hblanks => ?_⟩
    rw [hquery, Option.map_some, Text.isBlankText_iff.2 hblanks] at hlacks
    exact nomatch hlacks

/-- What is not a span is taken over from a pool section, or from the defaults. -/
theorem given_of_ofSettings {p : PoolSettings} {limits : PoolConfig}
    (h : PoolConfig.ofSettings p = .ok limits) : limits.maxActive = p.maxActive.getD 10 ∧
      limits.pingEnabled = p.pingEnabled.getD false ∧
      limits.pingQuery = p.pingQuery.getD PoolConfig.standard.pingQuery ∧
      limits.badBudget = p.maxIdle.getD 5 + p.badConnectionTolerance.getD 3 := by
  obtain ⟨d₁, -, h⟩ := bind_ok h
  obtain ⟨d₂, -, h⟩ := bind_ok h
  obtain ⟨d₃, -, h⟩ := bind_ok h
  obtain ⟨d₄, -, h⟩ := bind_ok h
  obtain rfl := Except.ok.inj h
  exact ⟨rfl, rfl, rfl, rfl⟩

/-- A pool section that keeps the rules lets a connection be out, and has the statement of its probes. -/
theorem KeepsRules.limits {p : PoolSettings} {limits : PoolConfig} (h : KeepsRules p)
    (hlimits : PoolConfig.ofSettings p = .ok limits) : 1 ≤ limits.maxActive ∧
      (limits.pingEnabled = true → p.pingQuery = some limits.pingQuery ∧
        ¬ Text.Blanks limits.pingQuery.toList) := by
  obtain ⟨hactive, henabled, hquery, -⟩ := given_of_ofSettings hlimits
  constructor
  · rw [hactive]
    cases hn : p.maxActive with
    | none => decide
    | some n => exact Nat.pos_of_ne_zero fun hzero => h.maxActive (hzero ▸ hn)
  · intro hon
    rw [henabled] at hon
    have hgiven : p.pingEnabled = some true := by
      cases hp : p.pingEnabled with
      | none =>
        rw [hp] at hon
        exact nomatch hon
      | some on =>
        rw [hp] at hon
        exact congrArg some hon
    obtain ⟨query, hq, hblanks⟩ := h.query hgiven
    rw [hquery, hq]
    exact ⟨rfl, hblanks⟩

/-- **A configuration that passes the check is resolved**, to a pool that lets a connection be out and has
the statement of its probes. -/
theorem resolved_of_valid {config : Config} (h : config.validate = .ok ()) :
    ∃ r, Resolved.ofConfig config = .ok r ∧ 1 ≤ r.pool.maxActive ∧
      (r.pool.pingEnabled = true → ∃ p, config.pool = some p ∧ p.pingQuery = some r.pool.pingQuery ∧
        ¬ Text.Blanks r.pool.pingQuery.toList) := by
  have hreads := ofConfig_reads config
  rcases validate_reads config with ⟨rule, hrule⟩ | ⟨hvalidate, hrules⟩
  · rw [hrule] at h
    exact nomatch h
  rw [← hvalidate, h] at hreads
  cases hr : Resolved.ofConfig config with
  | error e =>
    rw [hr] at hreads
    exact nomatch hreads
  | ok r =>
    have hpool := (ofConfig_ok hr).2
    refine ⟨r, rfl, ?_⟩
    cases hp : config.pool with
    | none =>
      rw [hp] at hpool
      rw [← Except.ok.inj hpool]
      exact ⟨by decide, fun henabled => nomatch henabled⟩
    | some p =>
      rw [hp] at hpool
      obtain ⟨hactive, hping⟩ := (hrules h p hp).limits hpool
      exact ⟨hactive, fun henabled => ⟨p, rfl, hping henabled⟩⟩

/-- An error of the check about a duration is the error of resolving. -/
theorem ofConfig_error_of_validate {config : Config} {field value : String}
    (h : config.validate = .error (.invalidDuration field value)) :
    Resolved.ofConfig config = .error (.invalidDuration field value) := by
  have hreads := ofConfig_reads config
  rcases validate_reads config with ⟨rule, hrule⟩ | ⟨hvalidate, -⟩
  · rw [hrule] at h
    exact nomatch h
  rw [← hvalidate, h] at hreads
  cases hr : Resolved.ofConfig config with
  | ok r =>
    rw [hr] at hreads
    exact nomatch hreads
  | error e =>
    rw [hr] at hreads
    exact congrArg Except.error (Except.error.inj hreads)

/-- An error of resolving is about a duration that is given, and is the error of the check, or a rule is
broken. -/
theorem validate_error_of_ofConfig {config : Config} {e : ConfigError}
    (h : Resolved.ofConfig config = .error e) :
    (∃ field text, (field, some text) ∈ config.durations ∧ e = .invalidDuration field.path text) ∧
      (config.validate = .error e ∨ ∃ rule, config.validate = .error (.invalid rule)) := by
  have hreads := ofConfig_reads config
  rw [h] at hreads
  have hread : readAll config.durations = .error e := hreads.symm
  refine ⟨readAll_error hread, ?_⟩
  rcases validate_reads config with hrule | ⟨hvalidate, -⟩
  · exact .inr hrule
  · exact .inl (hvalidate.trans hread)

/-- A pool is made of what a configuration is resolved to. -/
theorem pool_ofConfig (config : Config) (driver : Nat) : Pool.ofConfig config driver =
    (Resolved.ofConfig config).map fun r => .new ⟨r.source, driver⟩ r.pool := by
  unfold Pool.ofConfig Resolved.ofConfig
  cases SourceConfig.ofSettings config.source with
  | error e => rfl
  | ok source => cases PoolConfig.ofSettings? config.pool <;> rfl

/-- **Checking and resolving agree.**  A configuration that passes the check is resolved, to a pool that
lets a connection be out and that has, if it probes, the statement that the configuration gives, which is
not blank.  An error of the check about a duration is the error of resolving, and every error of resolving
is about a duration that the configuration gives and is the error of the check, unless the check finds a
broken rule before.  A pool is made of what the configuration is resolved to. -/
theorem validation_agrees_with_resolution (config : Config) :
    (config.validate = .ok () → ∃ r, Resolved.ofConfig config = .ok r ∧ 1 ≤ r.pool.maxActive ∧
      (r.pool.pingEnabled = true → ∃ p, config.pool = some p ∧ p.pingQuery = some r.pool.pingQuery ∧
        ¬ Text.Blanks r.pool.pingQuery.toList)) ∧
    (∀ field value, config.validate = .error (.invalidDuration field value) →
      Resolved.ofConfig config = .error (.invalidDuration field value)) ∧
    (∀ e, Resolved.ofConfig config = .error e →
      (∃ field text, (field, some text) ∈ config.durations ∧
        e = .invalidDuration field.path text) ∧
      (config.validate = .error e ∨ ∃ rule, config.validate = .error (.invalid rule))) ∧
    (∀ driver, Pool.ofConfig config driver =
      (Resolved.ofConfig config).map fun r => .new ⟨r.source, driver⟩ r.pool) :=
  ⟨resolved_of_valid, fun _ _ => ofConfig_error_of_validate, fun _ => validate_error_of_ofConfig,
    pool_ofConfig config⟩

/-- A configuration of a pool that probes. -/
def probing : Config where
  source := { driver := "memory", url := "memory:a", networkTimeout := some "5s" }
  pool := some { pingEnabled := some true, pingQuery := some "SELECT 1" }

/-- A pool that would probe with nothing, behind a span that cannot be read. -/
def misread : Config :=
  { probing with pool := some { pingEnabled := some true, timeToWait := some " soon" } }

theorem validation_agrees_with_resolution_probing :
    let unread := ConfigError.invalidDuration "pool.time_to_wait" " soon"
    (∃ r, Resolved.ofConfig probing = .ok r ∧ 1 ≤ r.pool.maxActive ∧ r.pool.pingQuery = "SELECT 1" ∧
      ¬ Text.Blanks r.pool.pingQuery.toList) ∧
    Resolved.ofConfig misread = .error unread ∧
    (misread.validate = .error unread ∨ ∃ rule, misread.validate = .error (.invalid rule)) := by
  intro unread
  obtain ⟨r, hr, hactive, hping⟩ := (validation_agrees_with_resolution probing).1 (by rfl)
  have henabled : r.pool.pingEnabled = true := (given_of_ofSettings (ofConfig_ok hr).2).2.1
  obtain ⟨p, hp, hquery, hblanks⟩ := hping henabled
  obtain rfl := Option.some.inj hp
  have hunread := (validation_agrees_with_resolution misread).2.1 _ _ (by rfl)
  exact ⟨⟨r, hr, hactive, (Option.some.inj hquery).symm, hblanks⟩, hunread,
    ((validation_agrees_with_resolution misread).2.2.1 _ hunread).2⟩

end Config

end ConnPool
