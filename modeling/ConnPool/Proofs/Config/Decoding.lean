/-
  The entries of a configuration are read as the configuration.

  A section is read key by key, and each key changes the one setting that it names (`foldlM_entry`), so
  after the keys that are given all settings are what they were in the section.  The properties come in
  the order of their names, so each is put behind those before it (`place_last`).
-/
import ConnPool.Config.Decode
import ConnPool.Proofs.Config.Document

namespace ConnPool.Config

open ConnPool.Toml (Value Entries tableEntry documentEntries)

/-! ## Keys that may be missing -/

/-- The key of a setting, if it is given: `put` is what the setting does to what has been read. -/
theorem foldlM_entry {step : σ → String × Value → Decoded σ} {key : String} {make : α → Value}
    {s : σ} {o : Option α} (put : σ → Option α → σ) (hnone : put s none = s)
    (hsome : ∀ a, step s (key, make a) = .ok (put s (some a))) :
    (entry key make o).foldlM step s = .ok (put s o) := by
  cases o with
  | none => exact congrArg Except.ok hnone.symm
  | some a =>
    show (step s (key, make a) >>= pure) = _
    rw [hsome]
    rfl

/-- Entries are read one section behind the other. -/
theorem foldlM_append_ok {step : σ → String × Value → Decoded σ} {l₁ l₂ : Entries} {s s₁ s₂ : σ}
    (h₁ : l₁.foldlM step s = .ok s₁) (h₂ : l₂.foldlM step s₁ = .ok s₂) :
    (l₁ ++ l₂).foldlM step s = .ok s₂ := by
  rw [List.foldlM_append, h₁]
  exact h₂

theorem tableEntry_map (name : String) (make : α → Entries) (o : Option α) :
    tableEntry name (o.map make) = entry name (fun a => .table (make a)) o := by
  cases o <;> rfl

/-! ## Properties -/

/-- A name behind all others is put at the end. -/
theorem place_last {name value : String} : ∀ {l : List (String × String)},
    (∀ e ∈ l, e.1 < name) → Properties.place name value l = l ++ [(name, value)]
  | [], _ => rfl
  | (k, v) :: l, h => by
    have hk : k < name := h _ List.mem_cons_self
    have hne : name ≠ k := fun heq => String.lt_irrefl _ (heq ▸ hk)
    rw [Properties.place, if_neg (String.lt_asymm hk), if_neg hne,
      place_last fun e he => h e (List.mem_cons_of_mem _ he), List.cons_append]

theorem readProperties : ∀ {rest : List (String × String)} {p q : Properties},
    q.entries = p.entries ++ rest →
    (rest.map fun e => (e.1, Value.string e.2)).foldlM
      (fun (p : Properties) (e : String × Value) => do
        let text ← decodeString e.2
        pure (p.set e.1 text)) p = .ok q
  | [], ⟨_, _⟩, ⟨_, _⟩, h => by
    rw [List.append_nil] at h
    cases h
    rfl
  | (k, v) :: rest, p, q, h => by
    have hset : (p.set k v).entries = p.entries ++ [(k, v)] := by
      have hasc := h ▸ q.ascending
      exact place_last fun e he =>
        (List.pairwise_append.1 hasc).2.2 e he (k, v) List.mem_cons_self
    have hentries : q.entries = (p.set k v).entries ++ rest := by
      rw [hset, h, List.append_assoc, List.singleton_append]
    exact @readProperties rest (p.set k v) q hentries

theorem decodeProperties_entries (p : Properties) :
    decodeProperties (.table (propertyEntries p)) = .ok p :=
  readProperties rfl

/-! ## Sections -/

theorem decodeIsolation_levelValue (level : Isolation) :
    decodeIsolation (levelValue level) = .ok level := by
  rw [levelValue, decodeIsolation, isolationOfLabel, Isolation.ofLabel?_label]

theorem readProperties_key (p : PartialSource) (properties : Properties) :
    p.read "properties" (.table (propertyEntries properties)) =
      .ok { p with rest := { p.rest with properties := some properties } } := by
  show (do return { p with rest := { p.rest with
    properties := some (← decodeProperties (.table (propertyEntries properties))) } } :
      Decoded PartialSource) = _
  rw [decodeProperties_entries]
  rfl

theorem readIsolation_key (p : PartialSource) (level : Isolation) :
    p.read "isolation" (levelValue level) =
      .ok { p with rest := { p.rest with isolation := some level } } := by
  show (do return { p with rest := { p.rest with
    isolation := some (← decodeIsolation (levelValue level)) } } : Decoded PartialSource) = _
  rw [decodeIsolation_levelValue]
  rfl

theorem readSource_entry {key : String} {make : α → Value} {p : PartialSource} {o : Option α}
    (put : SourceSettings → Option α → SourceSettings) (hnone : put p.rest none = p.rest)
    (hsome : ∀ a, p.read key (make a) = .ok { p with rest := put p.rest (some a) }) :
    (entry key make o).foldlM (fun (p : PartialSource) e => p.read e.1 e.2) p =
      .ok { p with rest := put p.rest o } :=
  foldlM_entry (fun (p : PartialSource) o => { p with rest := put p.rest o })
    (congrArg (PartialSource.mk p.driver p.url) hnone) hsome

theorem readPool_entry {key : String} {make : α → Value} {p : PoolSettings} {o : Option α}
    (put : PoolSettings → Option α → PoolSettings) (hnone : put p none = p)
    (hsome : ∀ a, readPoolKey p key (make a) = .ok (put p (some a))) :
    (entry key make o).foldlM (fun p e => readPoolKey p e.1 e.2) p = .ok (put p o) :=
  foldlM_entry put hnone hsome

/-- **A source section is read back.** -/
theorem decodeSource_entries (s : SourceSettings) :
    decodeSource (.table (sourceEntries s ++
      tableEntry "properties" (s.properties.map propertyEntries))) = .ok s := by
  have hread : (sourceEntries s ++ tableEntry "properties" (s.properties.map propertyEntries)).foldlM
      (fun (p : PartialSource) e => p.read e.1 e.2) {} =
      .ok ⟨some s.driver, some s.url, { s with driver := "", url := "" }⟩ := by
    have hfirst : [("driver", Value.string s.driver), ("url", .string s.url)].foldlM
        (fun (p : PartialSource) e => p.read e.1 e.2) {} =
        .ok ⟨some s.driver, some s.url, { driver := "", url := "" }⟩ := rfl
    simp only [sourceEntries, tableEntry_map, List.append_assoc]
    refine foldlM_append_ok hfirst ?_
    refine foldlM_append_ok (readSource_entry (fun s o => { s with username := o }) rfl
      fun _ => rfl) ?_
    refine foldlM_append_ok (readSource_entry (fun s o => { s with password := o }) rfl
      fun _ => rfl) ?_
    refine foldlM_append_ok (readSource_entry (fun s o => { s with autoCommit := o }) rfl
      fun _ => rfl) ?_
    refine foldlM_append_ok (readSource_entry (fun s o => { s with isolation := o }) rfl
      fun _ => readIsolation_key _ _) ?_
    refine foldlM_append_ok (readSource_entry (fun s o => { s with networkTimeout := o }) rfl
      fun _ => rfl) ?_
    exact readSource_entry (fun s o => { s with properties := o }) rfl
      fun _ => readProperties_key _ _
  show (List.foldlM (fun (p : PartialSource) (e : String × Value) => p.read e.1 e.2) {} _ >>=
    PartialSource.finish) = _
  rw [hread]
  rfl

/-- **A pool section is read back.** -/
theorem decodePool_entries (p : PoolSettings) : decodePool (.table (poolEntries p)) = .ok p := by
  show (poolEntries p).foldlM
    (fun (q : PoolSettings) (e : String × Value) => readPoolKey q e.1 e.2) {} = _
  simp only [poolEntries, List.append_assoc]
  refine foldlM_append_ok (readPool_entry (fun p o => { p with maxActive := o }) rfl fun _ => rfl) ?_
  refine foldlM_append_ok (readPool_entry (fun p o => { p with maxIdle := o }) rfl fun _ => rfl) ?_
  refine foldlM_append_ok (readPool_entry (fun p o => { p with maxCheckoutTime := o }) rfl
    fun _ => rfl) ?_
  refine foldlM_append_ok (readPool_entry (fun p o => { p with timeToWait := o }) rfl
    fun _ => rfl) ?_
  refine foldlM_append_ok (readPool_entry (fun p o => { p with badConnectionTolerance := o }) rfl
    fun _ => rfl) ?_
  refine foldlM_append_ok (readPool_entry (fun p o => { p with pingEnabled := o }) rfl
    fun _ => rfl) ?_
  refine foldlM_append_ok (readPool_entry (fun p o => { p with pingQuery := o }) rfl fun _ => rfl) ?_
  refine foldlM_append_ok (readPool_entry (fun p o => { p with pingNotUsedFor := o }) rfl
    fun _ => rfl) ?_
  exact readPool_entry (fun p o => { p with drainTimeout := o }) rfl fun _ => rfl

/-! ## The whole document -/

/-- **The entries of a configuration are read as the configuration.** -/
theorem decode_entries (config : Config) : decode config.entries = .ok config := by
  have hread : config.entries.foldlM (fun (s : Sections) e => s.read e.1 e.2) {} =
      .ok ⟨some config.source, config.pool⟩ := by
    have hsource : Sections.read {} "source" (.table (sourceEntries config.source ++
        tableEntry "properties" (config.source.properties.map propertyEntries))) =
        .ok ⟨some config.source, none⟩ := by
      show (do return { source := some (← decodeSource _) } : Decoded Sections) = _
      rw [decodeSource_entries]
      rfl
    rw [entries, documentEntries, List.foldlM_cons, hsource, tableEntry_map]
    refine foldlM_entry (fun (s : Sections) o => { s with pool := o }) rfl fun pool => ?_
    show (do return { source := some config.source, pool := some (← decodePool _) } :
      Decoded Sections) = _
    rw [decodePool_entries]
    rfl
  rw [decode, hread]
  rfl

end ConnPool.Config
