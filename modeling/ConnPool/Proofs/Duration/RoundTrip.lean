/-
  Settings are written so that they are read back.

  A span is written as so many of the largest unit that its whole milliseconds are a multiple of, if
  there are any (`settingText_spec`).  Digits with a unit directly behind them are read as so many
  of the unit, if there can be so many (`readSetting_digits_iff`).  So what is written comes back exactly
  when writing has lost nothing and the number fits (`readSetting_settingText_iff`).  What a span has
  beyond its whole milliseconds is lost, and the number fits but for one case: milliseconds that are not
  whole seconds may be too many for a word.

  The largest unit is also the shortest to write: its name is no longer than that of a smaller one, and
  there are no more of it (`settingText_le`).
-/
import ConnPool.Proofs.Duration.Grammar

namespace ConnPool

open Text

namespace Duration

/-! ## Digits and a unit -/

theorem numeral_toDigits (n : Nat) : Numeral (Nat.toDigits 10 n) n :=
  numeral_iff.2 ⟨Nat.toDigits_ne_nil,
    fun _ hc => Nat.isDigit_of_mem_toDigits (by omega) (by omega) hc, Nat.ofDigitChars_ten_toDigits⟩

/-- There are at least as many digits in a numeral as its number needs. -/
theorem length_toDigits_le {cs : List Char} {n m : Nat} (h : Numeral cs n) (hle : m ≤ n) :
    (Nat.toDigits 10 m).length ≤ cs.length := by
  have hlt : n < 10 ^ cs.length := by
    clear hle
    induction h with
    | digit hd => simpa using hd
    | @cons d n cs hd _ ih =>
      have hd' : d * 10 ^ cs.length ≤ 9 * 10 ^ cs.length := Nat.mul_le_mul_right _ (by omega)
      rw [List.length_cons, Nat.pow_succ]
      omega
  have hpos : 0 < cs.length := List.length_pos_iff.2 h.ne_nil
  exact (Nat.length_toDigits_le_iff (by omega) hpos).2 (by omega)

/-- **Digits with a unit directly behind them** are read as so many of the unit. -/
theorem readSetting_digits_iff {s : String} {d : Duration} {digits : List Char} (unit : TimeUnit)
    (hs : s.toList = digits ++ unit.text) (hdigits : ∀ c ∈ digits, c.isDigit = true) :
    readSetting s = some d ↔ ∃ n, Numeral digits n ∧ unit.Fits n ∧ d = unit.span n := by
  have hblank : ∀ c ∈ digits, isBlank c = false := fun c hc => isBlank_of_isDigit (hdigits c hc)
  have htrim : trim s.toList = digits ++ unit.text := by
    rw [hs]
    refine trim_of_no_blank fun c hc => ?_
    exact (List.mem_append.1 hc).elim (hblank c) (unit.isBlank_text c)
  have hlast : digits.getLast? ≠ some 'm' := by
    intro hm
    exact absurd (hdigits 'm' (List.mem_of_getLast? hm)) (by decide)
  rw [readSetting_unit_iff unit htrim fun _ => hlast, trim_of_no_blank hblank]
  refine exists_congr fun n => and_congr_left fun _ => ⟨fun hn => ?_, .plain⟩
  cases hn with
  | plain hn => exact hn
  | plus hn => exact absurd (hdigits '+' List.mem_cons_self) (by decide)

/-! ## What is written -/

/-- The milliseconds of a unit. -/
def TimeUnit.size : TimeUnit → Nat
  | .millis => 1
  | .secs => 1000
  | .minutes => 60000

theorem TimeUnit.span_eq (unit : TimeUnit) (n : Nat) : unit.span n = ofMillis (n * unit.size) := by
  ext
  cases unit <;> simp only [span, size, nanos_ofMillis, nanos_ofSecs] <;> omega

theorem TimeUnit.millis_span (unit : TimeUnit) (n : Nat) : (unit.span n).millis = n * unit.size := by
  rw [unit.span_eq, millis_ofMillis]

/-- A larger unit has no longer name. -/
theorem TimeUnit.length_text_le {unit unit' : TimeUnit} (h : unit'.size ≤ unit.size) :
    unit.text.length ≤ unit'.text.length := by
  cases unit <;> cases unit' <;> simp_all [size, text]

/-- **A span is written in the largest unit** that its whole milliseconds are a multiple of, unless there
are none. -/
theorem settingText_spec (d : Duration) : ∃ (unit : TimeUnit) (n : Nat),
    d.settingText.toList = Nat.toDigits 10 n ++ unit.text ∧ d.millis = n * unit.size ∧
      (0 < d.millis → ∀ (unit' : TimeUnit) (n' : Nat), d.millis = n' * unit'.size →
        unit'.size ≤ unit.size) := by
  have hwritten : ∀ (n : Nat) (name : String),
      (toString n ++ name).toList = Nat.toDigits 10 n ++ name.toList := by
    intro n name
    rw [String.toList_append, Nat.toString_eq_ofList_toDigits, String.toList_ofList]
  unfold settingText
  dsimp only
  split
  case isTrue hminutes =>
    refine ⟨.minutes, d.millis / 60000, hwritten _ _, ?_, fun _ unit' n' _ => ?_⟩
    · show d.millis = d.millis / 60000 * 60000
      omega
    · cases unit' <;> decide
  case isFalse hminutes =>
    split
    case isTrue hsecs =>
      refine ⟨.secs, d.millis / 1000, hwritten _ _, ?_, fun hpos unit' n' h => ?_⟩
      · show d.millis = d.millis / 1000 * 1000
        omega
      · cases unit' with
        | millis => decide
        | secs => decide
        | minutes =>
          have h' : d.millis = n' * 60000 := h
          omega
    case isFalse hsecs =>
      refine ⟨.millis, d.millis, hwritten _ _, (Nat.mul_one _).symm, fun hpos unit' n' h => ?_⟩
      cases unit' with
      | millis => decide
      | secs =>
        have h' : d.millis = n' * 1000 := h
        omega
      | minutes =>
        have h' : d.millis = n' * 60000 := h
        omega

/-! ## What comes back -/

/-- The spans that can be written as a setting and read back: whole milliseconds, of which there are
either whole seconds or fewer than `2 ^ 64`. -/
def Settable (d : Duration) : Prop :=
  (∃ n, d = ofMillis n) ∧ ((∃ n, d = ofSecs n) ∨ d < ofMillis (2 ^ 64))

/-- So many of a unit as a setting may give can be written. -/
theorem settable_span (unit : TimeUnit) {n : Nat} (hfits : unit.Fits n) :
    Settable (unit.span n) ∧ (unit.span n).secs ≤ 2 ^ 64 - 1 := by
  have hle := hfits.1
  refine ⟨⟨⟨_, unit.span_eq n⟩, ?_⟩, ?_⟩
  · cases unit with
    | millis =>
      refine .inr (lt_iff.2 ?_)
      simp only [TimeUnit.span, nanos_ofMillis]
      omega
    | secs => exact .inl ⟨n, rfl⟩
    | minutes => exact .inl ⟨60 * n, rfl⟩
  · cases unit with
    | millis =>
      simp only [TimeUnit.span, secs, nanos_ofMillis]
      omega
    | secs => exact Nat.le_trans (Nat.le_of_eq (secs_ofSecs n)) hle
    | minutes => exact Nat.le_trans (Nat.le_of_eq (secs_ofSecs _)) (hfits.2 rfl)

theorem Means.settable {cs : List Char} {d : Duration} (h : Means cs d) :
    Settable d ∧ d.secs ≤ 2 ^ 64 - 1 := by
  cases h with
  | bare hn hle => exact settable_span .secs ⟨hle, fun h => nomatch h⟩
  | withUnit unit hn hgap hfits => exact settable_span unit hfits

/-- The number that is written fits, if the seconds do and the milliseconds are whole seconds or few. -/
theorem fits_of_settable {d : Duration} (hsecs : d.secs ≤ 2 ^ 64 - 1)
    (h : Settable d) {unit : TimeUnit} {n : Nat} (hmillis : d.millis = n * unit.size)
    (hlargest : 0 < d.millis → ∀ (unit' : TimeUnit) (n' : Nat), d.millis = n' * unit'.size →
      unit'.size ≤ unit.size) : unit.Fits n := by
  have hnanos : d.nanos / 1000000 = n * unit.size := hmillis
  have hseconds : d.nanos / 1000000000 ≤ 2 ^ 64 - 1 := hsecs
  cases unit with
  | millis =>
    refine ⟨?_, fun h => nomatch h⟩
    simp only [TimeUnit.size] at hnanos
    rcases h.2 with ⟨k, rfl⟩ | hlt
    · -- whole seconds are written as such, but for zero
      by_cases hzero : (ofSecs k).millis = 0
      · have hn : n * 1 = 0 := hmillis.symm.trans hzero
        omega
      · have hsize := hlargest (by omega) .secs k (TimeUnit.millis_span .secs k)
        exact absurd hsize (by decide)
    · have hlt' : d.nanos < 2 ^ 64 * 1000000 := hlt
      omega
  | secs =>
    simp only [TimeUnit.size] at hnanos
    exact ⟨by omega, fun h => nomatch h⟩
  | minutes =>
    simp only [TimeUnit.size] at hnanos
    exact ⟨by omega, fun _ => by omega⟩

/-- **What is written is read back** exactly for the spans that can be. -/
theorem readSetting_settingText_iff {d : Duration} (hsecs : d.secs ≤ 2 ^ 64 - 1) :
    readSetting d.settingText = some d ↔ Settable d := by
  obtain ⟨unit, n, htext, hmillis, hlargest⟩ := settingText_spec d
  constructor
  · exact fun h => (means_of_readSetting h).settable.1
  · intro h
    obtain ⟨k, hk⟩ := h.1
    refine (readSetting_digits_iff unit htext (numeral_toDigits n).isDigit).2
      ⟨n, numeral_toDigits n, fits_of_settable hsecs h hmillis hlargest, ?_⟩
    calc d = ofMillis k := hk
      _ = ofMillis d.millis := by rw [hk, millis_ofMillis]
      _ = unit.span n := by rw [unit.span_eq, hmillis]

/-- What is read from a setting is written so that it is read back. -/
theorem readSetting_settingText {s : String} {d : Duration} (h : readSetting s = some d) :
    readSetting d.settingText = some d := by
  obtain ⟨hsettable, hsecs⟩ := (means_of_readSetting h).settable
  exact (readSetting_settingText_iff hsecs).2 hsettable

/-- **Nothing shorter is read**: digits with a unit directly behind them that mean a span are at least as
long as what is written for it. -/
theorem settingText_le {d : Duration} (hpos : 0 < d.nanos) {digits : List Char} (unit : TimeUnit)
    (hdigits : ∀ c ∈ digits, c.isDigit = true)
    (h : readSetting (String.ofList (digits ++ unit.text)) = some d) :
    d.settingText.length ≤ (digits ++ unit.text).length := by
  obtain ⟨n, hn, -, rfl⟩ := (readSetting_digits_iff unit String.toList_ofList hdigits).1 h
  have hmillis : 0 < (unit.span n).millis := by
    rw [unit.span_eq, nanos_ofMillis] at hpos
    rw [unit.millis_span]
    omega
  obtain ⟨unit', m, htext, hm, hlargest⟩ := settingText_spec (unit.span n)
  rw [unit.millis_span] at hm
  have hsize : unit.size ≤ unit'.size := hlargest hmillis unit n (unit.millis_span n)
  -- of the larger unit there are no more
  have hle : m ≤ n := by
    have hone : 0 < unit.size := by
      cases unit <;> decide
    have hmul : m * unit.size ≤ n * unit.size := by
      rw [hm]
      exact Nat.mul_le_mul_left m hsize
    exact Nat.le_of_mul_le_mul_right hmul hone
  rw [← String.length_toList, htext, List.length_append, List.length_append]
  exact Nat.add_le_add (length_toDigits_le hn hle) (TimeUnit.length_text_le hsize)

end Duration

namespace Config

open Duration

/-- **Settings go through their text.**  Every span that is accepted is written as a text that is accepted
and means the same span, so different spans are written differently; and no digits with a unit directly
behind them that mean the span are shorter, unless it is zero.  Of all spans whose seconds fit in a word,
those that come back are the whole milliseconds that are whole seconds or fewer than `2 ^ 64`. -/
theorem settings_read_back :
    (∀ (path text : String) (d : Duration), readSpan path text = .ok d →
      readSpan path d.settingText = .ok d ∧
      (0 < d.nanos → ∀ (digits : List Char) (unit : TimeUnit), (∀ c ∈ digits, c.isDigit = true) →
        readSpan path (String.ofList (digits ++ unit.text)) = .ok d →
        d.settingText.length ≤ (String.ofList (digits ++ unit.text)).length)) ∧
    (∀ (path text path' text' : String) (d d' : Duration), readSpan path text = .ok d →
      readSpan path' text' = .ok d' → d.settingText = d'.settingText → d = d') ∧
    (∀ (path : String) (d : Duration), d.secs ≤ 2 ^ 64 - 1 →
      (readSpan path d.settingText = .ok d ↔
        (∃ n, d = ofMillis n) ∧ ((∃ n, d = ofSecs n) ∨ d < ofMillis (2 ^ 64)))) := by
  have hback : ∀ {path text : String} {d : Duration}, readSpan path text = .ok d →
      readSetting d.settingText = some d :=
    fun h => readSetting_settingText (readSpan_eq_ok_iff.1 h)
  refine ⟨fun path text d h => ⟨readSpan_eq_ok_iff.2 (hback h), ?_⟩, ?_, ?_⟩
  · intro hpos digits unit hdigits hread
    rw [String.length_ofList]
    exact settingText_le hpos unit hdigits (readSpan_eq_ok_iff.1 hread)
  · intro path text path' text' d d' h h' heq
    have hd := hback h
    rw [heq, hback h'] at hd
    exact (Option.some.inj hd).symm
  · intro path d hsecs
    exact readSpan_eq_ok_iff.trans (readSetting_settingText_iff hsecs)

/-- Two minutes, given with zeros in front, and the first milliseconds that do not come back. -/
theorem settings_read_back_at_bounds :
    let path := DurationField.timeToWait.path
    let many := ofMillis (2 ^ 64)
    readSpan path "\t+0120 s" = .ok (ofSecs 120) ∧
      readSpan path (ofSecs 120).settingText = .ok (ofSecs 120) ∧
      readSpan path (String.ofList ("0120".toList ++ TimeUnit.secs.text)) = .ok (ofSecs 120) ∧
      (ofSecs 120).settingText.length ≤ "0120s".length ∧
      many.secs ≤ 2 ^ 64 - 1 ∧ readSpan path many.settingText ≠ .ok many := by
  intro path many
  have hread : readSpan path "\t+0120 s" = .ok (ofSecs 120) :=
    readSpan_eq_ok_iff.2 (by decide +kernel)
  have hdigits : readSpan path (String.ofList ("0120".toList ++ TimeUnit.secs.text)) =
      .ok (ofSecs 120) := readSpan_eq_ok_iff.2 (by decide +kernel)
  have hsecs : many.secs ≤ 2 ^ 64 - 1 := by decide
  obtain ⟨hback, hshort⟩ := settings_read_back.1 path "\t+0120 s" _ hread
  have hall : ∀ c ∈ "0120".toList, c.isDigit = true := List.all_eq_true.1 (by decide +kernel)
  refine ⟨hread, hback, hdigits, hshort (by decide) "0120".toList .secs hall hdigits, hsecs, fun h => ?_⟩
  rcases ((settings_read_back.2.2 path many hsecs).1 h).2 with ⟨n, hn⟩ | hlt
  · have hnanos : 2 ^ 64 * 1000000 = n * 1000000000 := congrArg Duration.nanos hn
    omega
  · exact absurd hlt (by decide)

end Config

end ConnPool
