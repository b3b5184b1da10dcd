/-
  The document of a configuration.

  `sourceLines`, `propertyLines` and `poolLines` say how the settings of a section are written.  This
  module says which entries of a document they are (`sourceEntries`, `propertyEntries`, `poolEntries`),
  section by section in the same order, and that reading the rendered text gives these entries
  (`parse_render`).  The only thing asked of a configuration is that its numbers fit.
-/
import ConnPool.Config.Render
import ConnPool.Proofs.Toml.Tables

namespace ConnPool.Config

open ConnPool.Toml

/-! ## The entries of the sections -/

/-- The entry of a setting, if it is given. -/
def entry (key : String) (make : α → Value) : Option α → Entries
  | none => []
  | some a => [(key, make a)]

def countValue (n : Nat) : Value :=
  .integer n

def levelValue (level : Isolation) : Value :=
  .string level.label

def sourceEntries (s : SourceSettings) : Entries :=
  [("driver", .string s.driver), ("url", .string s.url)] ++
    entry "username" .string s.username ++
    entry "password" .string s.password ++
    entry "auto_commit" .boolean s.autoCommit ++
    entry "isolation" levelValue s.isolation ++
    entry "network_timeout" .string s.networkTimeout

def propertyEntries (p : Properties) : Entries :=
  p.entries.map fun e => (e.1, .string e.2)

def poolEntries (p : PoolSettings) : Entries :=
  entry "max_active" countValue p.maxActive ++
    entry "max_idle" countValue p.maxIdle ++
    entry "max_checkout_time" .string p.maxCheckoutTime ++
    entry "time_to_wait" .string p.timeToWait ++
    entry "local_bad_connection_tolerance" countValue p.badConnectionTolerance ++
    entry "ping_enabled" .boolean p.pingEnabled ++
    entry "ping_query" .string p.pingQuery ++
    entry "ping_connections_not_used_for" .string p.pingNotUsedFor ++
    entry "drain_timeout" .string p.drainTimeout

/-- The entries of the whole document. -/
def entries (config : Config) : Entries :=
  documentEntries "source" "properties" "pool" (sourceEntries config.source)
    (config.source.properties.map propertyEntries) (config.pool.map poolEntries)

/-! ## The sections as they are written -/

theorem writesAll_given {key : String} {write : α → List Char} {make : α → Value} :
    ∀ {o : Option α}, (∀ a ∈ o, Writes (write a) (make a)) →
      WritesAll (given key write o) (entry key make o)
  | none, _ => .nil
  | some _, h => .cons (h _ rfl) .nil

theorem writes_bool (b : Bool) : Writes (writeBool b) (.boolean b) := by
  cases b with
  | false => exact writes_false
  | true => exact writes_true

theorem fits_iff {n : Option Nat} : fits n = true ↔ ∀ k ∈ n, k < signedLimit := by
  cases n with
  | none => simp [fits, signedLimit]
  | some k => simp [fits]

theorem writesAll_texts {key : String} (o : Option String) :
    WritesAll (given key writeText o) (entry key .string o) :=
  writesAll_given fun s _ => writes_text s

theorem writesAll_bools {key : String} (o : Option Bool) :
    WritesAll (given key writeBool o) (entry key .boolean o) :=
  writesAll_given fun b _ => writes_bool b

theorem writesAll_counts {key : String} {o : Option Nat} (h : fits o = true) :
    WritesAll (given key writeCount o) (entry key countValue o) :=
  writesAll_given fun n hn => writes_count (fits_iff.1 h n hn)

theorem writesAll_source (s : SourceSettings) : WritesAll (sourceLines s) (sourceEntries s) := by
  have hlevel : WritesAll (given "isolation" (fun level => writeText level.label) s.isolation)
      (entry "isolation" levelValue s.isolation) := writesAll_given fun level _ => writes_text level.label
  have hfirst : WritesAll [("driver", writeText s.driver), ("url", writeText s.url)]
      [("driver", .string s.driver), ("url", .string s.url)] :=
    .cons (writes_text _) (.cons (writes_text _) .nil)
  exact ((((hfirst.append (writesAll_texts _)).append (writesAll_texts _)).append
    (writesAll_bools _)).append hlevel).append (writesAll_texts _)

theorem writesAll_properties (p : Properties) : WritesAll (propertyLines p) (propertyEntries p) := by
  have hentries : ∀ l : List (String × String),
      WritesAll (l.map fun e => (e.1, writeText e.2)) (l.map fun e => (e.1, .string e.2)) := by
    intro l
    induction l with
    | nil => exact .nil
    | cons e l ih => exact .cons (writes_text e.2) ih
  exact hentries p.entries

theorem writesAll_pool {p : PoolSettings}
    (h : (fits p.maxActive && fits p.maxIdle && fits p.badConnectionTolerance) = true) :
    WritesAll (poolLines p) (poolEntries p) := by
  rw [Bool.and_eq_true, Bool.and_eq_true] at h
  exact ((((((((writesAll_counts h.1.1).append (writesAll_counts h.1.2)).append
    (writesAll_texts _)).append (writesAll_texts _)).append (writesAll_counts h.2)).append
    (writesAll_bools _)).append (writesAll_texts _)).append (writesAll_texts _)).append
    (writesAll_texts _)

/-! ## No section has a key twice -/

theorem keys_entry (key : String) (make : α → Value) (o : Option α) :
    ((entry key make o).map Prod.fst).Sublist [key] := by
  cases o with
  | none => exact List.nil_sublist _
  | some a => exact List.Sublist.refl _

theorem keys_source (s : SourceSettings) : ((sourceEntries s).map Prod.fst).Sublist
    ["driver", "url", "username", "password", "auto_commit", "isolation", "network_timeout"] := by
  simp only [sourceEntries, List.map_append]
  exact (((((List.Sublist.refl ["driver", "url"]).append (keys_entry _ _ _)).append
    (keys_entry _ _ _)).append (keys_entry _ _ _)).append (keys_entry _ _ _)).append
    (keys_entry _ _ _)

theorem keys_pool (p : PoolSettings) : ((poolEntries p).map Prod.fst).Sublist
    ["max_active", "max_idle", "max_checkout_time", "time_to_wait",
     "local_bad_connection_tolerance", "ping_enabled", "ping_query",
     "ping_connections_not_used_for", "drain_timeout"] := by
  simp only [poolEntries, List.map_append]
  exact ((((((((keys_entry _ _ _).append (keys_entry _ _ _)).append (keys_entry _ _ _)).append
    (keys_entry _ _ _)).append (keys_entry _ _ _)).append (keys_entry _ _ _)).append
    (keys_entry _ _ _)).append (keys_entry _ _ _)).append (keys_entry _ _ _)

theorem nodup_properties (p : Properties) : ((propertyEntries p).map Prod.fst).Nodup := by
  have hkeys : (propertyEntries p).map Prod.fst = p.entries.map Prod.fst := by
    simp [propertyEntries]
  rw [hkeys]
  exact List.Pairwise.map _ (fun a b hlt heq => String.lt_irrefl _ (heq ▸ hlt)) p.ascending

/-! ## The whole document -/

/-- A table that may be missing, with its header. -/
theorem readsAs_optional {ts : List (List Char)} {ls : List Line} (hne : ts ≠ [])
    (hts : ReadsAs (writeTables ts) ls) {path : String} {names : List String}
    (hpath : IsPath path names) {write : α → List (String × List Char)} {make : α → Entries} :
    ∀ {o : Option α}, (∀ a ∈ o, WritesAll (write a) (make a)) →
      ReadsAs (writeTables (ts ++ o.elim [] fun a => [writeTable path (write a)]))
        (ls ++ tableLines names (o.map make))
  | none, _ => by
    rw [Option.elim_none, List.append_nil]
    exact (List.append_nil ls).symm ▸ hts
  | some a, h => hts.concat hne (readsAs_writeTable hpath (h a rfl))

theorem tables_eq (config : Config) : config.tables =
    [writeTable "source" (sourceLines config.source)] ++
      (config.source.properties.elim [] fun p => [writeTable "source.properties" (propertyLines p)]) ++
      (config.pool.elim [] fun p => [writeTable "pool" (poolLines p)]) := by
  unfold tables
  cases config.source.properties <;> cases config.pool <;> rfl

theorem readsAs_tables {config : Config} (h : config.writable = true) :
    ReadsAs (writeTables config.tables) (documentLines "source" "properties" "pool"
      (sourceEntries config.source) (config.source.properties.map propertyEntries)
      (config.pool.map poolEntries)) := by
  have hpool : ∀ p ∈ config.pool, WritesAll (poolLines p) (poolEntries p) := by
    intro p hp
    rw [writable, Option.mem_def.1 hp] at h
    exact writesAll_pool h
  rw [tables_eq]
  refine readsAs_optional ?_ (readsAs_optional (List.cons_ne_nil _ _) ?_ isPath_properties
    fun p _ => writesAll_properties p) isPath_pool hpool
  · simp
  · exact readsAs_writeTable isPath_source (writesAll_source _)

/-- **The rendered text of a configuration is a document with its entries.** -/
theorem parse_render {config : Config} (h : config.writable = true) :
    Toml.parse (String.ofList (writeTables config.tables)) = some config.entries := by
  have hhead : ∃ tail, writeTables config.tables = '[' :: tail := by
    rw [tables_eq]
    cases config.source.properties <;> cases config.pool <;> exact ⟨_, rfl⟩
  obtain ⟨tail, htail⟩ := hhead
  have htext : (String.ofList (writeTables config.tables)).toList = '[' :: tail := by
    rw [String.toList_ofList, htail]
  have hlines := lines_of_readsAs htext (by rw [String.toList_ofList]; exact readsAs_tables h)
  have hname : ∀ e ∈ sourceEntries config.source, e.1 ≠ "properties" := by
    intro e he heq
    have hmem := (keys_source config.source).subset (List.mem_map_of_mem he)
    rw [heq] at hmem
    exact absurd hmem (by decide)
  rw [Toml.parse, hlines]
  refine meaning_documentLines (by decide) ((keys_source _).nodup (by decide)) hname ?_ ?_
  · intro es hes
    obtain ⟨p, -, rfl⟩ := Option.map_eq_some_iff.1 hes
    exact nodup_properties p
  · intro es hes
    obtain ⟨p, -, rfl⟩ := Option.map_eq_some_iff.1 hes
    exact (keys_pool p).nodup (by decide)

end ConnPool.Config
