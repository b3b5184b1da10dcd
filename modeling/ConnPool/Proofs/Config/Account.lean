/-
  The JSON account of a configuration is faithful.

  An account has a section for the pool and one for the source.  A section is read back as a section of
  a configuration file is: by its keys, a `null` for a setting that is not given (`Reads`).  Every key
  stands for the setting that it was written for, so what is read are the settings shown
  (`poolSettings?_toJson`, `sourceSettings?_toJson`).

  Resolving the settings shown gives back what they were shown of, if every span comes back from its
  text.  A span that was read from a setting does, and so do the defaults (`spansComeBack_ofSettings`).
  The password alone cannot be read back, because its mask says no more than that there is one.
-/
import ConnPool.Check
import ConnPool.Proofs.Config.Decoding
import ConnPool.Proofs.Config.Resolution
import ConnPool.Proofs.Duration.RoundTrip

namespace ConnPool

open ConnPool.Toml (Value Entries)

/-! ## Reading JSON -/

namespace Json

open Config (Decoded PartialSource decodeSource decodePool propertyEntries)

/-- The member of an object with a name. -/
def get? (name : String) : Json → Option Json
  | .obj members => members.lookup name
  | _ => none

mutual

/-- The value of a document that stands for a JSON value; none stands for `null`. -/
def value? : Json → Option Value
  | .null => none
  | .bool b => some (.boolean b)
  | .num n => some (.integer n)
  | .str s => some (.string s)
  | .arr elements => (values? elements).map .array
  | .obj members => (entries? members).map .table

def values? : List Json → Option (List Value)
  | [] => some []
  | j :: rest => do return (← j.value?) :: (← values? rest)

def entries? : List (String × Json) → Option Entries
  | [] => some []
  | (name, j) :: rest => do return (name, ← j.value?) :: (← entries? rest)

end

/-- The settings that the members of a section give; a `null` gives none. -/
def given? : List (String × Json) → Option Entries
  | [] => some []
  | (_, .null) :: rest => given? rest
  | (name, j) :: rest => do return (name, ← j.value?) :: (← given? rest)

/-- An object as a section of a document. -/
def asSection? : Json → Option Value
  | .obj members => (given? members).map .table
  | _ => none

/-- The pool section of an account, read as settings. -/
def poolSettings? (account : Json) : Option PoolSettings := do
  let v ← (← account.get? "pool").asSection?
  (decodePool v).toOption

/-- The source section of an account, read as settings. -/
def sourceSettings? (account : Json) : Option SourceSettings := do
  let v ← (← account.get? "source").asSection?
  (decodeSource v).toOption

/-! ## Reading a section key by key -/

/-- Reading the members of a section takes what has been read from `s` to `s'`. -/
def Reads (step : σ → String → Value → Decoded σ) (members : List (String × Json)) (s s' : σ) : Prop :=
  ∃ entries, given? members = some entries ∧
    entries.foldlM (fun s (e : String × Value) => step s e.1 e.2) s = .ok s'

section

variable {step : σ → String → Value → Decoded σ} {name : String} {rest : List (String × Json)}
  {s s₁ s' : σ}

theorem reads_nil : Reads step [] s s := ⟨[], rfl, rfl⟩

theorem given?_cons {j : Json} {v : Value} (hv : j.value? = some v) :
    given? ((name, j) :: rest) = (given? rest).map ((name, v) :: ·) := by
  cases j with
  | null => exact nomatch hv
  | _ =>
    show (do return (name, ← value? _) :: (← given? rest) : Option Entries) = _
    rw [hv]
    cases given? rest <;> rfl

/-- A key that is given. -/
theorem reads_cons {j : Json} {v : Value} (hv : j.value? = some v) (hstep : step s name v = .ok s₁)
    (hrest : Reads step rest s₁ s') : Reads step ((name, j) :: rest) s s' := by
  obtain ⟨entries, hgiven, hread⟩ := hrest
  refine ⟨(name, v) :: entries, by rw [given?_cons hv, hgiven]; rfl, ?_⟩
  rw [List.foldlM_cons, hstep]
  exact hread

/-- A key whose setting may be missing: `put` is what the setting does to what has been read. -/
theorem reads_ofOption {f : α → Json} {make : α → Value} {o : Option α} (put : σ → Option α → σ)
    (hvalue : ∀ a, (f a).value? = some (make a)) (hnone : put s none = s)
    (hsome : ∀ a, step s name (make a) = .ok (put s (some a)))
    (hrest : Reads step rest (put s o) s') : Reads step ((name, ofOption f o) :: rest) s s' := by
  cases o with
  | none =>
    rw [hnone] at hrest
    exact hrest
  | some a => exact reads_cons (hvalue a) (hsome a) hrest

end

/-- A source section is read key by key. -/
theorem sourceSettings?_of_reads {account : Json} {members : List (String × Json)}
    {p : PartialSource} {s : SourceSettings} (hmember : account.get? "source" = some (.obj members))
    (hread : Reads PartialSource.read members {} p) (hfinish : p.finish = .ok s) :
    account.sourceSettings? = some s := by
  obtain ⟨entries, hgiven, hfold⟩ := hread
  have hdecode : decodeSource (.table entries) = .ok s := by
    show (List.foldlM (fun (p : PartialSource) (e : String × Value) => p.read e.1 e.2) {} _ >>=
      PartialSource.finish) = _
    rw [hfold]
    exact hfinish
  have hsection : (Json.obj members).asSection? = some (.table entries) := by
    rw [asSection?, hgiven]
    rfl
  simp only [sourceSettings?, hmember, hsection, hdecode, Option.bind_eq_bind, Option.bind_some,
    Except.toOption]

theorem entries?_properties (l : List (String × String)) :
    entries? (l.map fun e => (e.1, .str e.2)) = some (l.map fun e => (e.1, .string e.2)) := by
  induction l with
  | nil => rfl
  | cons e l ih =>
    show (do return (e.1, Value.string e.2) :: (← entries? _) : Option Entries) = _
    rw [ih]
    rfl

theorem value?_properties (p : Properties) :
    (obj (p.entries.map fun e => (e.1, .str e.2))).value? = some (.table (propertyEntries p)) := by
  rw [value?, entries?_properties]
  rfl

end Json

/-! ## The settings that an account shows -/

/-- The limits of a pool, written out as settings. -/
def PoolConfig.toSettings (c : PoolConfig) : PoolSettings where
  maxActive := some c.maxActive
  maxIdle := some c.maxIdle
  maxCheckoutTime := some c.maxCheckoutTime.settingText
  timeToWait := some c.timeToWait.settingText
  badConnectionTolerance := some c.badConnectionTolerance
  pingEnabled := some c.pingEnabled
  pingQuery := some c.pingQuery
  pingNotUsedFor := some c.pingNotUsedFor.settingText
  drainTimeout := some c.drainTimeout.settingText

/-- Whether a pool section leaves no setting open. -/
def PoolSettings.Complete (p : PoolSettings) : Prop :=
  p.maxActive.isSome ∧ p.maxIdle.isSome ∧ p.maxCheckoutTime.isSome ∧ p.timeToWait.isSome ∧
    p.badConnectionTolerance.isSome ∧ p.pingEnabled.isSome ∧ p.pingQuery.isSome ∧
    p.pingNotUsedFor.isSome ∧ p.drainTimeout.isSome

theorem PoolConfig.complete_toSettings (c : PoolConfig) : c.toSettings.Complete :=
  ⟨rfl, rfl, rfl, rfl, rfl, rfl, rfl, rfl, rfl⟩

/-- A source, written out as settings. -/
def SourceConfig.toSettings (c : SourceConfig) : SourceSettings where
  driver := c.driver
  url := c.url
  username := c.username
  password := c.password
  autoCommit := c.autoCommit
  isolation := c.isolation
  networkTimeout := c.networkTimeout.map Duration.settingText
  properties := some c.properties

namespace Resolved

open Config Json

/-- **The pool section shows the limits.** -/
theorem poolSettings?_toJson (r : Resolved) : r.toJson.poolSettings? = some r.pool.toSettings := rfl

/-- **The source section shows the source**, its password masked. -/
theorem sourceSettings?_toJson (r : Resolved) : r.toJson.sourceSettings? =
    some { r.source.toSettings with password := r.source.password.map mask } := by
  refine sourceSettings?_of_reads
    (p := ⟨some r.source.driver, some r.source.url, { r.source.toSettings with
      driver := "", url := "", password := r.source.password.map mask }⟩) rfl ?_ rfl
  -- the keys stand in ascending order
  refine reads_ofOption (fun p o => { p with rest := { p.rest with autoCommit := o } })
    (fun _ => rfl) rfl (fun _ => rfl) ?_
  refine reads_cons rfl rfl ?_
  refine reads_ofOption (fun p o => { p with rest := { p.rest with isolation := o } })
    (fun _ => rfl) rfl (fun _ => readIsolation_key _ _) ?_
  refine reads_ofOption (fun p o => { p with rest :=
    { p.rest with networkTimeout := o.map Duration.settingText } })
    (fun _ => rfl) rfl (fun _ => rfl) ?_
  refine reads_ofOption (fun p o => { p with rest := { p.rest with password := o.map mask } })
    (fun _ => rfl) rfl (fun _ => rfl) ?_
  refine reads_cons (value?_properties _) (readProperties_key _ _) ?_
  refine reads_cons rfl rfl ?_
  exact reads_ofOption (fun p o => { p with rest := { p.rest with username := o } })
    (fun _ => rfl) rfl (fun _ => rfl) reads_nil

end Resolved

/-! ## Spans come back from their texts -/

/-- Whether a span is read from what is written for it. -/
def Duration.ComesBack (d : Duration) : Prop :=
  readSetting d.settingText = some d

/-- The spans of a pool come back. -/
structure PoolConfig.SpansComeBack (c : PoolConfig) : Prop where
  maxCheckoutTime : c.maxCheckoutTime.ComesBack
  timeToWait : c.timeToWait.ComesBack
  pingNotUsedFor : c.pingNotUsedFor.ComesBack
  drainTimeout : c.drainTimeout.ComesBack

namespace Config

open Duration

theorem readDuration?_settingText {d : Duration} (h : d.ComesBack) (field : DurationField) :
    readDuration? field (some d.settingText) = .ok (some d) := by
  have hread : readSpan field.path d.settingText = .ok d := readSpan_eq_ok_iff.2 h
  exact congrArg (Except.map some) hread

theorem comesBack_of_readDuration? {field : DurationField} {text : Option String}
    {o : Option Duration} (h : readDuration? field text = .ok o) : ∀ d ∈ o, d.ComesBack := by
  rcases readDuration?_cases field text with ⟨-, hread⟩ | ⟨s, d, -, hd, hread⟩ | ⟨s, -, hread⟩
  · rw [hread] at h
    obtain rfl := Except.ok.inj h
    exact nofun
  · rw [hread] at h
    obtain rfl := Except.ok.inj h
    intro d' hd'
    obtain rfl := Option.some.inj hd'
    exact readSetting_settingText hd
  · rw [hread] at h
    exact nomatch h

theorem comesBack_getD {field : DurationField} {text : Option String} {o : Option Duration}
    (h : readDuration? field text = .ok o) {d : Duration} (hd : d.ComesBack) :
    (o.getD d).ComesBack := by
  cases o with
  | none => exact hd
  | some d' => exact comesBack_of_readDuration? h d' rfl

end Config

open Config

theorem PoolConfig.spansComeBack_standard : standard.SpansComeBack := by
  constructor <;> unfold Duration.ComesBack <;> decide +kernel

/-- The spans of a pool section come back, and so do the defaults of those that it leaves open. -/
theorem PoolConfig.spansComeBack_ofSettings {p : PoolSettings} {c : PoolConfig}
    (h : ofSettings p = .ok c) : c.SpansComeBack := by
  obtain ⟨d₁, h₁, h⟩ := bind_ok h
  obtain ⟨d₂, h₂, h⟩ := bind_ok h
  obtain ⟨d₃, h₃, h⟩ := bind_ok h
  obtain ⟨d₄, h₄, h⟩ := bind_ok h
  obtain rfl := Except.ok.inj h
  have hstandard := spansComeBack_standard
  exact ⟨comesBack_getD h₁ hstandard.maxCheckoutTime, comesBack_getD h₂ hstandard.timeToWait,
    comesBack_getD h₃ hstandard.pingNotUsedFor, comesBack_getD h₄ hstandard.drainTimeout⟩

theorem PoolConfig.spansComeBack_ofSettings? {o : Option PoolSettings} {c : PoolConfig}
    (h : ofSettings? o = .ok c) : c.SpansComeBack := by
  cases o with
  | none => exact Except.ok.inj h ▸ spansComeBack_standard
  | some p => exact spansComeBack_ofSettings h

/-- **The settings of a pool are resolved to the pool.** -/
theorem PoolConfig.ofSettings_toSettings {c : PoolConfig} (h : c.SpansComeBack) :
    ofSettings c.toSettings = .ok c := by
  simp only [ofSettings, toSettings, readDuration?_settingText h.maxCheckoutTime,
    readDuration?_settingText h.timeToWait, readDuration?_settingText h.pingNotUsedFor,
    readDuration?_settingText h.drainTimeout]
  rfl

/-- **The settings of a source are resolved to the source.** -/
theorem SourceConfig.ofSettings_toSettings {s : SourceSettings} {c : SourceConfig}
    (h : ofSettings s = .ok c) : ofSettings c.toSettings = .ok c := by
  obtain ⟨timeout, hread, h⟩ := bind_ok h
  obtain rfl := Except.ok.inj h
  have hback : readDuration? .networkTimeout (timeout.map Duration.settingText) = .ok timeout := by
    cases timeout with
    | none => rfl
    | some d => exact readDuration?_settingText (comesBack_of_readDuration? hread d rfl) _
  simp only [ofSettings, toSettings, hback]
  rfl

/-! ## The account -/

namespace Config

/-- **The JSON account is faithful.**  Of every configuration that can be resolved, the pool section of the
account gives all settings of a pool, and they are resolved to the pool.  The source section gives
settings that are resolved to the source when the password takes the place of its mask. -/
theorem account_is_faithful {config : Config} {r : Resolved} (h : Resolved.ofConfig config = .ok r) :
    (∃ p, r.toJson.poolSettings? = some p ∧ p.Complete ∧ PoolConfig.ofSettings p = .ok r.pool) ∧
    (∃ s, r.toJson.sourceSettings? = some s ∧ s.password = r.source.password.map Resolved.mask ∧
      SourceConfig.ofSettings { s with password := r.source.password } = .ok r.source) := by
  obtain ⟨hsource, hpool⟩ := ofConfig_ok h
  have hspans := PoolConfig.spansComeBack_ofSettings? hpool
  exact ⟨⟨_, r.poolSettings?_toJson, r.pool.complete_toSettings, PoolConfig.ofSettings_toSettings hspans⟩,
    ⟨_, r.sourceSettings?_toJson, rfl, SourceConfig.ofSettings_toSettings hsource⟩⟩

/-- A configuration with every setting of a source, of which the pool is left to the defaults in part. -/
def detailed : Config where
  source := {
    driver := "memory"
    url := "memory:a"
    username := some "app"
    password := some "hunter2"
    autoCommit := some false
    isolation := some .repeatableRead
    networkTimeout := some " +090 s"
    properties := some (Properties.ofList [("b", "2"), ("a", "")]) }
  pool := some { maxActive := some 2, maxCheckoutTime := some "1500ms", pingNotUsedFor := some "2m" }

theorem account_is_faithful_detailed :
    ∃ r, Resolved.ofConfig detailed = .ok r ∧
      (∃ p, r.toJson.poolSettings? = some p ∧ p.Complete ∧ PoolConfig.ofSettings p = .ok r.pool) ∧
      (∃ s, r.toJson.sourceSettings? = some s ∧ s.password = some "********" ∧
        SourceConfig.ofSettings { s with password := some "hunter2" } = .ok r.source) := by
  have hresolved : ∃ r, Resolved.ofConfig detailed = .ok r ∧ r.source.password = some "hunter2" :=
    ⟨_, rfl, rfl⟩
  obtain ⟨r, hr, hpassword⟩ := hresolved
  obtain ⟨hpool, s, hs, hmask, hsource⟩ := account_is_faithful hr
  rw [hpassword] at hmask hsource
  exact ⟨r, hr, hpool, s, hs, hmask, hsource⟩

end Config

end ConnPool
