/-
  The grammar of settings that hold a span of time.

  A setting is read from behind: a unit is taken off its end, and the rest has to be a number.  The
  grammar says it from the front.  `Numeral` builds a decimal numeral digit by digit together with the
  number that it denotes, `Number` allows a plus sign in front, and `Means` adds a unit with blanks
  before it, or none.  `IsSetting` has blanks around all of this.

  The two agree because the last character of a number is a digit: it is no blank, so taking blanks off
  never takes part of a number, and it is no letter, so a number before an `s` is never mistaken for
  one before `ms`, nor a bare number for one with a unit.  The reader looks for one of the four endings
  (`ending_cases`) and each has one lemma; `readSetting_eq_some_iff` puts them together.
-/
import ConnPool.Config.Basic
import Mathlib.Algebra.Group.Nat.Defs

namespace ConnPool

open Text

/-! ## Numbers -/

/-- Decimal numerals and what they denote: one digit, or a digit in front of a numeral. -/
inductive Numeral : List Char → Nat → Prop
  | digit {d : Nat} (hd : d < 10) : Numeral [d.digitChar] d
  | cons {d n : Nat} {cs : List Char} (hd : d < 10) (h : Numeral cs n) :
    Numeral (d.digitChar :: cs) (d * 10 ^ cs.length + n)

/-- A numeral, or one with a plus sign. -/
inductive Number : List Char → Nat → Prop
  | plain {cs : List Char} {n : Nat} (h : Numeral cs n) : Number cs n
  | plus {cs : List Char} {n : Nat} (h : Numeral cs n) : Number ('+' :: cs) n

theorem exists_digit {c : Char} (h : c.isDigit = true) : ∃ d, d < 10 ∧ c = d.digitChar := by
  have hrange : 48 ≤ c.toNat ∧ c.toNat ≤ 57 := by
    simpa [Char.isDigit, UInt32.le_iff_toNat_le] using h
  refine ⟨c.toNat - 48, by omega, Char.toNat_inj.1 ?_⟩
  rw [Nat.toNat_digitChar_of_lt_ten (by omega)]
  omega

/-- **A numeral is a text of digits**, at least one, and denotes what they stand for. -/
theorem numeral_iff {cs : List Char} {n : Nat} : Numeral cs n ↔
    cs ≠ [] ∧ (∀ c ∈ cs, c.isDigit = true) ∧ Nat.ofDigitChars 10 cs 0 = n := by
  constructor
  · intro h
    induction h with
    | digit hd =>
      refine ⟨List.cons_ne_nil _ _, ?_, ?_⟩
      · simp [Nat.isDigit_digitChar, hd]
      · rw [Nat.ofDigitChars_cons_digitChar_of_lt_ten hd, Nat.ofDigitChars_nil]
        omega
    | @cons d n cs hd _ ih =>
      refine ⟨List.cons_ne_nil _ _, ?_, ?_⟩
      · refine List.forall_mem_cons.2 ⟨?_, ih.2.1⟩
        rw [Nat.isDigit_digitChar, decide_eq_true hd]
      · rw [Nat.ofDigitChars_cons_digitChar_of_lt_ten hd, Nat.ofDigitChars_eq_ofDigitChars_zero,
          ih.2.2, Nat.mul_zero, Nat.zero_add, Nat.mul_comm]
  · rintro ⟨hne, hdigits, rfl⟩
    induction cs with
    | nil => exact absurd rfl hne
    | cons c cs ih =>
      obtain ⟨hc, hcs⟩ := List.forall_mem_cons.1 hdigits
      obtain ⟨d, hd, rfl⟩ := exists_digit hc
      rw [Nat.ofDigitChars_cons_digitChar_of_lt_ten hd, Nat.ofDigitChars_eq_ofDigitChars_zero,
        Nat.mul_zero, Nat.zero_add, Nat.mul_comm]
      by_cases hnil : cs = []
      · subst hnil
        simpa using Numeral.digit hd
      · exact .cons hd (ih hnil hcs)

theorem lt_wordLimit_iff {n : Nat} : n < wordLimit ↔ n ≤ 2 ^ 64 - 1 := by
  unfold wordLimit
  omega

theorem readDigits_eq_some_iff {cs : List Char} {n : Nat} :
    readDigits cs = some n ↔ Numeral cs n ∧ n ≤ 2 ^ 64 - 1 := by
  rw [numeral_iff, readDigits]
  simp only [List.all_eq_true, lt_wordLimit_iff]
  constructor
  · intro h
    split at h
    case isFalse => nomatch h
    case isTrue hcs =>
      split at h
      case isFalse => nomatch h
      case isTrue hle =>
        obtain rfl := Option.some.inj h
        exact ⟨⟨hcs.1, hcs.2, rfl⟩, hle⟩
  · rintro ⟨⟨hne, hdigits, rfl⟩, hle⟩
    rw [if_pos ⟨hne, hdigits⟩, if_pos hle]

/-- **A word is read** from every number that fits in one, and from nothing else. -/
theorem readWord_eq_some_iff {cs : List Char} {n : Nat} :
    readWord cs = some n ↔ Number cs n ∧ n ≤ 2 ^ 64 - 1 := by
  constructor
  · intro h
    unfold readWord at h
    split at h
    · exact (readDigits_eq_some_iff.1 h).imp_left .plus
    · exact (readDigits_eq_some_iff.1 h).imp_left .plain
  · rintro ⟨h, hle⟩
    cases h with
    | plus h => exact readDigits_eq_some_iff.2 ⟨h, hle⟩
    | plain h =>
      have hread := readDigits_eq_some_iff.2 ⟨h, hle⟩
      unfold readWord
      split
      · -- a numeral has no sign
        have hplus := (numeral_iff.1 h).2.1 '+' List.mem_cons_self
        exact absurd hplus (by decide)
      · exact hread

/-! ## The ends of a number -/

theorem isBlank_of_isDigit {c : Char} (h : c.isDigit = true) : isBlank c = false := by
  obtain ⟨d, hd, rfl⟩ := exists_digit h
  have hnone : ∀ d, d < 10 → isBlank d.digitChar = false := by decide
  exact hnone d hd

section Ends

variable {cs : List Char} {n : Nat}

theorem Numeral.ne_nil (h : Numeral cs n) : cs ≠ [] :=
  (numeral_iff.1 h).1

theorem Numeral.isDigit (h : Numeral cs n) : ∀ c ∈ cs, c.isDigit = true :=
  (numeral_iff.1 h).2.1

theorem Number.ne_nil (h : Number cs n) : cs ≠ [] := by
  cases h with
  | plain h => exact h.ne_nil
  | plus h => exact List.cons_ne_nil _ _

/-- A number ends in a digit, with or without a sign. -/
theorem Number.last_isDigit (h : Number cs n) : ∀ c ∈ cs.getLast?, c.isDigit = true := by
  intro c hc
  cases h with
  | plain h => exact h.isDigit c (List.mem_of_getLast? hc)
  | @plus digits _ h =>
    rw [List.getLast?_cons_of_ne_nil h.ne_nil] at hc
    exact h.isDigit c (List.mem_of_getLast? hc)

/-- **No blank is taken off a number.** -/
theorem Number.trimmed (h : Number cs n) : Trimmed cs := by
  refine ⟨fun c hc => ?_, fun c hc => isBlank_of_isDigit (h.last_isDigit c hc)⟩
  cases h with
  | plain h => exact isBlank_of_isDigit (h.isDigit c (List.mem_of_head? hc))
  | plus h =>
    obtain rfl := Option.some.inj hc
    decide

end Ends

namespace Duration

/-! ## The grammar -/

/-- A unit that a setting may be written in. -/
inductive TimeUnit
  | millis
  | secs
  | minutes
deriving DecidableEq, Repr

namespace TimeUnit

/-- How a unit is written. -/
def text : TimeUnit → List Char
  | millis => ['m', 's']
  | secs => ['s']
  | minutes => ['m']

/-- A unit is written without blanks. -/
theorem isBlank_text (unit : TimeUnit) : ∀ c ∈ unit.text, isBlank c = false := by
  have hall : unit.text.all (fun c => !isBlank c) = true := by
    cases unit <;> decide
  intro c hc
  simpa using List.all_eq_true.1 hall c hc

/-- So many of a unit. -/
def span : TimeUnit → Nat → Duration
  | millis, n => ofMillis n
  | secs, n => ofSecs n
  | minutes, n => ofSecs (60 * n)

/-- Whether so many of a unit can be given: the number fits in a word, and so do the seconds of so
many minutes. -/
def Fits (unit : TimeUnit) (n : Nat) : Prop :=
  n ≤ 2 ^ 64 - 1 ∧ (unit = minutes → 60 * n ≤ 2 ^ 64 - 1)

end TimeUnit

/-- What a setting means when no blanks are around it: a bare number is one of seconds, and blanks may
stand between a number and its unit. -/
inductive Means : List Char → Duration → Prop
  | bare {number : List Char} {n : Nat} (hn : Number number n) (hfits : n ≤ 2 ^ 64 - 1) :
    Means number (ofSecs n)
  | withUnit {number gap : List Char} {n : Nat} (unit : TimeUnit) (hn : Number number n)
    (hgap : Blanks gap) (hfits : unit.Fits n) : Means (number ++ gap ++ unit.text) (unit.span n)

/-- What a setting means, with blanks around it or without. -/
def IsSetting (text : String) (d : Duration) : Prop :=
  ∃ before cs behind, text.toList = before ++ cs ++ behind ∧ Blanks before ∧ Blanks behind ∧ Means cs d

theorem Means.trimmed {cs : List Char} {d : Duration} (h : Means cs d) : Trimmed cs := by
  cases h with
  | bare hn _ => exact hn.trimmed
  | @withUnit number gap n unit hn hgap hfits =>
    refine ⟨fun c hc => ?_, fun c hc => ?_⟩
    · obtain ⟨x, digits, rfl⟩ := List.exists_cons_of_ne_nil hn.ne_nil
      exact hn.trimmed.first c hc
    · have hlast : (number ++ gap ++ unit.text).getLast? = unit.text.getLast? := by
        cases unit <;> simp [TimeUnit.text]
      exact unit.isBlank_text c (List.mem_of_getLast? (hlast ▸ hc))

/-- **A setting is what is left of its text** without the blanks around it. -/
theorem means_trim_iff {text : String} {d : Duration} :
    Means (trim text.toList) d ↔ IsSetting text d := by
  constructor
  · intro h
    obtain ⟨before, behind, hbefore, hbehind, htext⟩ := exists_padding text.toList
    exact ⟨before, _, behind, htext, hbefore, hbehind, h⟩
  · rintro ⟨before, cs, behind, htext, hbefore, hbehind, h⟩
    rw [htext, trim_padded hbefore hbehind h.trimmed]
    exact h

/-! ## The four endings -/

/-- The endings that the reader tells apart: `ms`, an `s` that is not part of one, `m`, and none. -/
theorem ending_cases (cs : List Char) :
    (∃ (unit : TimeUnit) (rest : List Char), cs = rest ++ unit.text ∧
      (unit = .secs → rest.getLast? ≠ some 'm')) ∨
    ∀ c ∈ cs.getLast?, c ≠ 's' ∧ c ≠ 'm' := by
  obtain rfl | ⟨rest, c, rfl⟩ := List.eq_nil_or_concat cs
  · exact .inr fun c hc => nomatch hc
  rw [List.concat_eq_append]
  by_cases hs : c = 's'
  · subst hs
    by_cases hm : rest.getLast? = some 'm'
    · obtain ⟨number, rfl⟩ := List.getLast?_eq_some_iff.1 hm
      exact .inl ⟨.millis, number, List.append_assoc .., fun h => nomatch h⟩
    · exact .inl ⟨.secs, rest, rfl, fun _ => hm⟩
  by_cases hm : c = 'm'
  · subst hm
    exact .inl ⟨.minutes, rest, rfl, fun h => nomatch h⟩
  · refine .inr fun d hd => ?_
    rw [List.getLast?_concat] at hd
    obtain rfl := Option.some.inj hd
    exact ⟨hs, hm⟩

section Readings

variable {s : String} {d : Duration} {rest : List Char}

theorem readSetting_millis (hs : trim s.toList = rest ++ ['m', 's']) :
    readSetting s = (readWord (trim rest)).map ofMillis := by
  have hrev : (trim s.toList).reverse = 's' :: 'm' :: rest.reverse := by simp [hs]
  simp only [readSetting, hrev, List.reverse_reverse]

theorem readSetting_secs (hs : trim s.toList = rest ++ ['s']) (hm : rest.getLast? ≠ some 'm') :
    readSetting s = (readWord (trim rest)).map ofSecs := by
  have hrev : (trim s.toList).reverse = 's' :: rest.reverse := by simp [hs]
  have hhead : ∀ l, rest.reverse ≠ 'm' :: l := by
    intro l hl
    rw [← List.head?_reverse, hl] at hm
    exact hm rfl
  simp only [readSetting, hrev, List.reverse_reverse]

theorem readSetting_minutes (hs : trim s.toList = rest ++ ['m']) :
    readSetting s = (readWord (trim rest)).bind ofMinutes? := by
  have hrev : (trim s.toList).reverse = 'm' :: rest.reverse := by simp [hs]
  simp only [readSetting, hrev, List.reverse_reverse]

theorem readSetting_bare (hs : ∀ c ∈ (trim s.toList).getLast?, c ≠ 's' ∧ c ≠ 'm') :
    readSetting s = (readWord (trim s.toList)).map ofSecs := by
  have hhead : ∀ c l, (trim s.toList).reverse = c :: l → c ≠ 's' ∧ c ≠ 'm' := by
    intro c l hl
    refine hs c ?_
    rw [← List.head?_reverse, hl]
    rfl
  unfold readSetting
  dsimp only
  split
  case h_1 h => exact absurd rfl (hhead _ _ h).1
  case h_2 h => exact absurd rfl (hhead _ _ h).1
  case h_3 h => exact absurd rfl (hhead _ _ h).2
  case h_4 => rfl

theorem ofMinutes?_eq_some_iff {n : Nat} :
    ofMinutes? n = some d ↔ 60 * n ≤ 2 ^ 64 - 1 ∧ d = ofSecs (60 * n) := by
  rw [ofMinutes?, Nat.mul_comm n 60, Option.ite_none_right_eq_some, lt_wordLimit_iff,
    Option.some.injEq, @eq_comm _ d]

/-- A setting with a unit is read when a number stands before it that fits. -/
theorem readSetting_unit_iff (unit : TimeUnit) (hs : trim s.toList = rest ++ unit.text)
    (hm : unit = .secs → rest.getLast? ≠ some 'm') :
    readSetting s = some d ↔ ∃ n, Number (trim rest) n ∧ unit.Fits n ∧ d = unit.span n := by
  cases unit with
  | millis =>
    rw [readSetting_millis hs, Option.map_eq_some_iff]
    simp [readWord_eq_some_iff, TimeUnit.Fits, TimeUnit.span, and_assoc, @eq_comm _ d]
  | secs =>
    rw [readSetting_secs hs (hm rfl), Option.map_eq_some_iff]
    simp [readWord_eq_some_iff, TimeUnit.Fits, TimeUnit.span, and_assoc, @eq_comm _ d]
  | minutes =>
    rw [readSetting_minutes hs, Option.bind_eq_some_iff]
    simp [readWord_eq_some_iff, ofMinutes?_eq_some_iff, TimeUnit.Fits, TimeUnit.span, and_assoc]

/-- A setting without a unit is read when it is a number that fits. -/
theorem readSetting_bare_iff (hs : ∀ c ∈ (trim s.toList).getLast?, c ≠ 's' ∧ c ≠ 'm') :
    readSetting s = some d ↔
      ∃ n, Number (trim s.toList) n ∧ n ≤ 2 ^ 64 - 1 ∧ d = ofSecs n := by
  rw [readSetting_bare hs, Option.map_eq_some_iff]
  simp [readWord_eq_some_iff, and_assoc, @eq_comm _ d]

end Readings

/-! ## Reading and the grammar -/

/-- What is read has the form of a setting. -/
theorem means_of_readSetting {s : String} {d : Duration} (h : readSetting s = some d) :
    Means (trim s.toList) d := by
  rcases ending_cases (trim s.toList) with ⟨unit, rest, hs, hm⟩ | hs
  · obtain ⟨n, hn, hfits, rfl⟩ := (readSetting_unit_iff unit hs hm).1 h
    obtain ⟨before, gap, hbefore, hgap, hrest⟩ := exists_padding rest
    -- the text begins with the number, since it does not begin with a blank
    have hnil : before = [] := by
      cases before with
      | nil => rfl
      | cons c before =>
        have hc : isBlank c = false := by
          refine (trimmed_trim s.toList).first c ?_
          rw [hs, hrest]
          rfl
        rw [hbefore c List.mem_cons_self] at hc
        exact nomatch hc
    rw [hnil, List.nil_append] at hrest
    rw [hs, hrest]
    exact .withUnit unit hn hgap hfits
  · obtain ⟨n, hn, hle, rfl⟩ := (readSetting_bare_iff hs).1 h
    exact .bare hn hle

/-- What has the form of a setting is read. -/
theorem readSetting_of_means {s : String} {d : Duration} {cs : List Char} (hs : trim s.toList = cs)
    (h : Means cs d) : readSetting s = some d := by
  cases h with
  | @bare number n hn hle =>
    -- a digit is none of the letters that begin a unit
    have hlast : ∀ c ∈ (trim s.toList).getLast?, c ≠ 's' ∧ c ≠ 'm' := by
      intro c hc
      have hdigit := hn.last_isDigit c (hs ▸ hc)
      exact ⟨fun h => absurd (h ▸ hdigit) (by decide), fun h => absurd (h ▸ hdigit) (by decide)⟩
    exact (readSetting_bare_iff hlast).2 ⟨n, hs.symm ▸ hn, hle, rfl⟩
  | @withUnit number gap n unit hn hgap hfits =>
    have hnumber : trim (number ++ gap) = number :=
      trim_padded (List.forall_mem_nil _) hgap hn.trimmed
    have hlast : (number ++ gap).getLast? ≠ some 'm' := by
      intro hm
      rw [List.getLast?_append, Option.or_eq_some_iff] at hm
      rcases hm with hm | ⟨-, hm⟩
      · exact absurd (hgap 'm' (List.mem_of_getLast? hm)) (by decide)
      · exact absurd (hn.last_isDigit 'm' hm) (by decide)
    exact (readSetting_unit_iff unit hs fun _ => hlast).2 ⟨n, hnumber.symm ▸ hn, hfits, rfl⟩

/-- **Reading accepts the grammar**, and gives what it says. -/
theorem readSetting_eq_some_iff {s : String} {d : Duration} :
    readSetting s = some d ↔ Means (trim s.toList) d :=
  ⟨means_of_readSetting, readSetting_of_means rfl⟩

end Duration

namespace Config

open Duration

theorem readSpan_eq_ok_iff {path text : String} {d : Duration} :
    readSpan path text = .ok d ↔ readSetting text = some d := by
  unfold readSpan
  cases readSetting text with
  | none => exact ⟨nofun, nofun⟩
  | some d' => rw [Except.ok.injEq, Option.some.injEq]

theorem readSpan_eq_error_iff {path text : String} {e : ConfigError} :
    readSpan path text = .error e ↔ e = .invalidDuration path text ∧ readSetting text = none := by
  unfold readSpan
  cases readSetting text with
  | none => rw [Except.error.injEq, eq_comm, and_iff_left rfl]
  | some d => exact ⟨nofun, fun h => nomatch h.2⟩

/-- **Settings are read by their grammar.**  A text is accepted as a span exactly when, between blanks,
it is a number of milliseconds, seconds or minutes that fits in a word, or a bare number of seconds; the
span is then this many of the unit.  In every other case the error names the setting and quotes the
whole text. -/
theorem reads_exactly_settings (path text : String) :
    (∀ d, readSpan path text = .ok d ↔ IsSetting text d) ∧
    (∀ e, readSpan path text = .error e ↔
      e = .invalidDuration path text ∧ ¬ ∃ d, IsSetting text d) := by
  have hiff : ∀ d, readSetting text = some d ↔ IsSetting text d :=
    fun d => readSetting_eq_some_iff.trans means_trim_iff
  refine ⟨fun d => readSpan_eq_ok_iff.trans (hiff d), fun e => readSpan_eq_error_iff.trans ?_⟩
  refine and_congr_right fun _ => ?_
  rw [Option.eq_none_iff_forall_ne_some, not_exists]
  exact forall_congr' fun d => not_congr (hiff d)

end Config

end ConnPool
