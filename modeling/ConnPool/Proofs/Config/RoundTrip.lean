/-
  A configuration can be rendered and read back, and nothing of it is lost.

  The rendered text is a document with the entries of the configuration (`parse_render`), and these are
  read as the configuration (`decode_entries`).  Both ask only that the numbers fit in a document.  The
  numbers of a configuration that has been read do, since those of a document do (`writable_of_parse`),
  so a text that is read at all can be rendered again.
-/
import ConnPool.Proofs.Config.Decoding
import ConnPool.Proofs.Toml.Bounds
import Mathlib.Algebra.Group.Nat.Defs

namespace ConnPool.Config

open ConnPool.Toml

/-! ## The numbers of a configuration -/

/-- All whole numbers of a configuration. -/
def numbers (config : Config) : List Nat :=
  config.pool.elim [] fun p =>
    p.maxActive.toList ++ p.maxIdle.toList ++ p.badConnectionTolerance.toList

theorem writable_iff {config : Config} :
    config.writable = true ↔ ∀ n ∈ config.numbers, n < signedLimit := by
  unfold writable numbers
  cases config.pool with
  | none => simp
  | some p =>
    simp only [Bool.and_eq_true, fits_iff, Option.elim_some, List.mem_append, Option.mem_toList, or_imp,
      forall_and, Option.mem_def]

/-! ## What is read has numbers that fit -/

section Keeps

/-! What every key of a section keeps, as long as the integers fit, the section keeps. -/

variable {I : σ → Prop} {step : σ → String → Value → Decoded σ}

theorem foldlM_keeps (hstep : ∀ s key v s', I s → InWords v → step s key v = .ok s' → I s') :
    ∀ {entries : Entries} {s s' : σ}, I s → (∀ e ∈ entries, InWords e.2) →
      entries.foldlM (fun s e => step s e.1 e.2) s = .ok s' → I s'
  | [], _, _, hs, _, h => by
    cases h
    exact hs
  | e :: entries, s, s', hs, hes, h => by
    have hes' := List.forall_mem_cons.1 hes
    rw [List.foldlM_cons] at h
    obtain ⟨s₁, hfirst, hrest⟩ := bind_ok h
    exact foldlM_keeps hstep (hstep s e.1 e.2 s₁ hs hes'.1 hfirst) hes'.2 hrest

theorem readPositions_keeps (hstep : ∀ s key v s', I s → InWords v → step s key v = .ok s' → I s')
    {expected : String} : ∀ {keys : List String} {done : Nat} {vs : List Value} {s s' : σ}, I s →
      (∀ v ∈ vs, InWords v) → readPositions expected step done keys vs s = .ok s' → I s'
  | [], _, _, _, _, hs, _, h => by
    cases h
    exact hs
  | _ :: _, _, [], _, _, _, _, h => nomatch h
  | key :: keys, done, v :: vs, s, s', hs, hvs, h => by
    have hvs' := List.forall_mem_cons.1 hvs
    rw [readPositions] at h
    obtain ⟨s₁, hfirst, hrest⟩ := bind_ok h
    exact readPositions_keeps hstep (hstep s key v s₁ hs hvs'.1 hfirst) hvs'.2 hrest

theorem inWords_asEntries {v : Value} (hv : InWords v) {entries : Entries}
    (h : asEntries v = some entries) : ∀ e ∈ entries, InWords e.2 := by
  cases hv with
  | table hes =>
    cases h
    exact hes
  | dateTime text =>
    cases h
    exact List.forall_mem_singleton.2 (.string text)
  | _ => exact nomatch h

theorem readSection_keeps (hstep : ∀ s key v s', I s → InWords v → step s key v = .ok s' → I s')
    {name : String} {keys : List String} {start s : σ} {v : Value} (hstart : I start)
    (hv : InWords v) (h : readSection name keys step start v = .ok s) : I s := by
  unfold readSection at h
  split at h
  case h_1 elements =>
    cases hv with
    | array helements => exact readPositions_keeps hstep hstart helements h
  case h_2 =>
    split at h
    case h_1 entries hentries => exact foldlM_keeps hstep hstart (inWords_asEntries hv hentries) h
    case h_2 => exact nomatch h

end Keeps

/-- The numbers of a pool section fit. -/
structure PoolFits (p : PoolSettings) : Prop where
  maxActive : fits p.maxActive = true
  maxIdle : fits p.maxIdle = true
  tolerance : fits p.badConnectionTolerance = true

theorem fits_decodeCount {v : Value} (hv : InWords v) {n : Nat} (h : decodeCount v = .ok n) :
    fits (some n) = true := by
  unfold decodeCount at h
  split at h
  · cases h
    cases hv with
    | integer hlt => exact fits_iff.2 fun k hk => Option.some.inj hk ▸ Int.ofNat_lt.1 hlt
  · exact nomatch h
  · exact nomatch h

theorem poolFits_readPoolKey {p p' : PoolSettings} {key : String} {v : Value} (hp : PoolFits p)
    (hv : InWords v) (h : readPoolKey p key v = .ok p') : PoolFits p' := by
  unfold readPoolKey at h
  split at h
  case h_10 =>
    cases h
    exact hp
  all_goals
    obtain ⟨a, ha, heq⟩ := bind_ok h
    cases heq
  case h_1 => exact { hp with maxActive := fits_decodeCount hv ha }
  case h_2 => exact { hp with maxIdle := fits_decodeCount hv ha }
  case h_5 => exact { hp with tolerance := fits_decodeCount hv ha }
  all_goals exact ⟨hp.maxActive, hp.maxIdle, hp.tolerance⟩

theorem poolFits_decodePool {v : Value} (hv : InWords v) {p : PoolSettings}
    (h : decodePool v = .ok p) : PoolFits p :=
  readSection_keeps (fun _ _ _ _ hp hv h => poolFits_readPoolKey hp hv h) ⟨rfl, rfl, rfl⟩ hv h

/-- The numbers of the sections that have been read fit. -/
def SectionsFit (s : Sections) : Prop :=
  ∀ p ∈ s.pool, PoolFits p

theorem sectionsFit_read {s s' : Sections} {key : String} {v : Value} (hs : SectionsFit s)
    (hv : InWords v) (h : s.read key v = .ok s') : SectionsFit s' := by
  unfold Sections.read at h
  split at h
  · obtain ⟨source, -, heq⟩ := bind_ok h
    cases heq
    exact hs
  · obtain ⟨p, hp, heq⟩ := bind_ok h
    cases heq
    rintro q ⟨⟩
    exact poolFits_decodePool hv hp
  · cases h
    exact hs

theorem writable_of_decode {entries : Entries} (hentries : ∀ e ∈ entries, InWords e.2)
    {config : Config} (h : decode entries = .ok config) : config.writable = true := by
  obtain ⟨s, hs, hfinish⟩ := bind_ok h
  have hstart : SectionsFit {} := by
    rintro p ⟨⟩
  have hpool : SectionsFit s :=
    foldlM_keeps (I := SectionsFit) (fun s key v s' hs hv (h : s.read key v = .ok s') =>
      sectionsFit_read hs hv h) hstart hentries hs
  split at hfinish
  · exact nomatch hfinish
  · cases hfinish
    unfold writable
    cases hp : s.pool with
    | none => rfl
    | some p =>
      have hfits := hpool p hp
      simp only [hfits.maxActive, hfits.maxIdle, hfits.tolerance, Bool.and_self]

/-! ## There and back -/

/-- What has been read is the meaning of a document, and it is valid. -/
theorem parse_cases {text : String} {config : Config} (h : parse text = .ok config) :
    ∃ entries, Toml.parse text = some entries ∧ decode entries = .ok config ∧
      config.validate = .ok () := by
  unfold parse at h
  split at h
  · exact nomatch h
  case h_2 entries hentries =>
    split at h
    · exact nomatch h
    case h_2 config' hdecode =>
      cases hvalid : validate config' with
      | error e =>
        rw [hvalid] at h
        exact nomatch h
      | ok u =>
        rw [hvalid] at h
        cases h
        exact ⟨entries, hentries, hdecode, hvalid⟩

/-- What is rendered is read as the configuration, if that passes the check, and refused with what the
check finds otherwise. -/
theorem parse_of_render {config : Config} {text : String} (h : config.render = .ok text) :
    parse text = config.validate.map fun () => config := by
  unfold render at h
  split at h
  case isTrue hwritable =>
    cases h
    rw [parse, parse_render hwritable]
    dsimp only
    rw [decode_entries]
    dsimp only
    cases config.validate <;> rfl
  case isFalse => exact nomatch h

/-- A valid configuration whose numbers fit is rendered, and the text is read as the configuration. -/
theorem parse_of_writable {config : Config} (hvalid : config.validate = .ok ())
    (h : config.writable = true) : ∃ text, config.render = .ok text ∧ parse text = .ok config := by
  have hrender : config.render = .ok (String.ofList (writeTables config.tables)) := if_pos h
  refine ⟨_, hrender, ?_⟩
  rw [parse_of_render hrender, hvalid]
  rfl

/-- **Configurations go through their text.**  Every configuration that is valid and whose numbers are
at most `2 ^ 63 - 1` is rendered as a text that is read as the configuration again.  So every text that
is read can be rendered again, and reading the rendering gives the same configuration. -/
theorem parse_render_round_trip :
    (∀ config : Config, config.validate = .ok () → (∀ n ∈ config.numbers, n ≤ 2 ^ 63 - 1) →
      ∃ text, config.render = .ok text ∧ parse text = .ok config) ∧
    (∀ (text : String) (config : Config), parse text = .ok config →
      ∃ text', config.render = .ok text' ∧ parse text' = .ok config) := by
  refine ⟨fun config hvalid hnumbers => ?_, fun text config h => ?_⟩
  · refine parse_of_writable hvalid (writable_iff.2 fun n hn => ?_)
    have hle := hnumbers n hn
    unfold signedLimit
    omega
  · obtain ⟨entries, hentries, hdecode, hvalid⟩ := parse_cases h
    exact parse_of_writable hvalid (writable_of_decode (inWords_parse hentries) hdecode)

/-- A configuration with quotes of both kinds, escapes and line ends in its texts and names. -/
def quoting : Config where
  source := {
    driver := "memory"
    url := "it's \"one\"\\\n'''\t"
    username := some ""
    password := some "''' \"\"\""
    autoCommit := some true
    isolation := some .repeatableRead
    networkTimeout := some "5s"
    properties := some (Properties.ofList [("a.b c", "\x07"), ("", "\r\n"), ("ü\"", "\\")]) }
  pool := some { maxActive := some 9223372036854775807, pingQuery := some "\n" }

theorem parse_render_round_trip_quoting :
    ∃ text, quoting.render = .ok text ∧ parse text = .ok quoting ∧
      ∃ text', quoting.render = .ok text' ∧ parse text' = .ok quoting := by
  obtain ⟨text, hrender, hparse⟩ :=
    parse_render_round_trip.1 quoting (by rfl) (by decide +kernel)
  exact ⟨text, hrender, hparse, parse_render_round_trip.2 text quoting hparse⟩

end ConnPool.Config
