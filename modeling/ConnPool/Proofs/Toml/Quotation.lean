/-
  A written text is read back.

  Whatever form a text is written in, the reader of that form undoes it.  A basic string is read
  character by character, since a character and its escape are read alike (`basicText_basicEscape`).
  A form with three quotes is harder: quotes of the text may stand in front of the closing ones, so the
  induction has to carry how many quotes were read last (`basicLines_written`, `literalLines_written`);
  that there are never more than two of them is what the writer sees to, by an escape or by its choice
  of the form.

  A literal string shows a text as it is, so it is used only for texts that can be shown (`Shows`); the
  writer's choice of a form respects this (`shows_formOf`).
-/
import ConnPool.Toml.Grammar
import ConnPool.Toml.Writer

namespace ConnPool.Toml

/-! ## Characters -/

theorem isGraphic_of_code {c : Char} (h : 32 ≤ c.toNat) (h' : c.toNat ≠ 127) :
    isGraphic c = true := by
  simp [isGraphic, h, h']

/-- A character that needs no escape, other than a line end, may stand in a document. -/
theorem isGraphic_of_not_needsCode {c : Char} (h : needsCode c = false) (hc : c ≠ '\n') :
    isGraphic c = true := by
  simp only [needsCode, Bool.or_eq_false_iff, Bool.and_eq_false_iff, decide_eq_false_iff_not] at h
  by_cases ht : c = '\t'
  · rw [ht]
    rfl
  · refine isGraphic_of_code ?_ h.2
    rcases h.1 with (hlt | htab) | hend
    · omega
    · simp [ht] at htab
    · simp [hc] at hend

theorem hexValue_upperHexDigit : ∀ n, n < 16 → hexValue (upperHexDigit n) = some n := by
  decide

/-- A character is the one with its own number. -/
theorem charOfCode_toNat (c : Char) : charOfCode c.toNat = some c := by
  have hvalid : c.toNat.isValidChar := c.valid
  rw [charOfCode, if_pos hvalid, Char.ofNat_toNat]

/-- How a character is written in a basic string: as itself, behind a backslash as the letter that
    stands for it, or by its number. -/
theorem basicEscape_cases (c : Char) :
    (basicEscape c = [c] ∧ c ≠ '"' ∧ c ≠ '\\' ∧ isGraphic c = true) ∨
    (∃ x, basicEscape c = ['\\', x] ∧ shortEscape x = some c) ∨
    (∃ high low, basicEscape c = ['\\', 'u', '0', '0', high, low] ∧
      hexValue high = some (c.toNat / 16) ∧ hexValue low = some (c.toNat % 16)) := by
  unfold basicEscape
  split
  case isTrue h8 =>
    have hc : c = Char.ofNat 8 := by rw [← h8, Char.ofNat_toNat]
    exact Or.inr (Or.inl ⟨'b', rfl, by rw [hc]; rfl⟩)
  split
  case isTrue ht => exact Or.inr (Or.inl ⟨'t', rfl, by rw [ht]; rfl⟩)
  split
  case isTrue hn => exact Or.inr (Or.inl ⟨'n', rfl, by rw [hn]; rfl⟩)
  split
  case isTrue h12 =>
    have hc : c = Char.ofNat 12 := by rw [← h12, Char.ofNat_toNat]
    exact Or.inr (Or.inl ⟨'f', rfl, by rw [hc]; rfl⟩)
  split
  case isTrue hr => exact Or.inr (Or.inl ⟨'r', rfl, by rw [hr]; rfl⟩)
  split
  case isTrue hq => exact Or.inr (Or.inl ⟨'"', rfl, by rw [hq]; rfl⟩)
  split
  case isTrue hb => exact Or.inr (Or.inl ⟨'\\', rfl, by rw [hb]; rfl⟩)
  split
  case isTrue hcode =>
    refine Or.inr (Or.inr ⟨_, _, rfl, ?_, ?_⟩)
    · exact hexValue_upperHexDigit _ (by omega)
    · exact hexValue_upperHexDigit _ (by omega)
  case isFalse hq hb hcode =>
    exact Or.inl ⟨rfl, hq, hb, isGraphic_of_code (by omega) (by omega)⟩

/-! ## Basic strings on one line -/

/-- **An escape is read as its character**, and a character without one as itself. -/
theorem basicText_basicEscape (c : Char) (rest : List Char) :
    basicText .plain (basicEscape c ++ rest) = push [c] (basicText .plain rest) := by
  rcases basicEscape_cases c with ⟨e, hq, hb, hc⟩ | ⟨x, e, hx⟩ | ⟨high, low, e, hhigh, hlow⟩
  · rw [e, List.singleton_append, basicText, if_neg hq, if_neg hb, if_pos hc]
  · rw [e]
    show basicText .escape (x :: rest) = _
    simp only [basicText, hx]
  · rw [e]
    show basicText (.code 4 0) ('0' :: '0' :: high :: low :: rest) = _
    have hnumber : 16 * (c.toNat / 16) + c.toNat % 16 = c.toNat := Nat.div_add_mod _ _
    have hzero : hexValue '0' = some 0 := rfl
    simp [basicText, hzero, hhigh, hlow, hnumber, charOfCode_toNat]

/-- **A basic string is read back.** -/
theorem basicText_written (cs rest : List Char) :
    basicText .plain (cs.flatMap basicEscape ++ '"' :: rest) = some (cs, rest) := by
  induction cs with
  | nil => rfl
  | cons c cs ih =>
    rw [List.flatMap_cons, List.append_assoc, basicText_basicEscape, ih]
    rfl

/-! ## Literal strings -/

/-- A text that a literal string shows as it is. -/
def Shows (cs : List Char) : Prop :=
  ∀ c ∈ cs, c ≠ apostrophe ∧ isGraphic c = true

/-- **A literal string is read back.** -/
theorem literalText_written {cs : List Char} (h : Shows cs) (rest : List Char) :
    literalText (cs ++ apostrophe :: rest) = some (cs, rest) := by
  induction cs with
  | nil => rfl
  | cons c cs ih =>
    obtain ⟨hne, hc⟩ := h c List.mem_cons_self
    rw [List.cons_append, literalText, if_neg hne, if_pos hc,
      ih fun d hd => h d (List.mem_cons_of_mem _ hd)]
    rfl

/-! ## Forms with three quotes -/

/-- What the next character means behind so many quotes in a basic string over several lines. -/
def behind : (quotes : Nat) → Mode
  | 0 => .plain
  | n + 1 => .quotes (n + 1)

/-- A character that is no quote is read behind quotes as it is without them. -/
theorem basicLines_behind {q : Nat} (hq : q ≤ 2) {c : Char} (hc : c ≠ '"') (rest : List Char) :
    basicLines (behind q) (c :: rest) =
      push (List.replicate q '"') (basicLines .plain (c :: rest)) := by
  cases q with
  | zero =>
    show basicLines .plain (c :: rest) = push [] (basicLines .plain (c :: rest))
    cases basicLines .plain (c :: rest) <;> rfl
  | succ q =>
    rw [behind, basicLines.eq_def, basicLines.eq_def]
    simp [hc]
    omega

/-- An escape is read as its character in a string over several lines as well. -/
theorem basicLines_basicEscape (c : Char) (rest : List Char) :
    basicLines .plain (basicEscape c ++ rest) = push [c] (basicLines .plain rest) := by
  rcases basicEscape_cases c with ⟨e, hq, hb, hc⟩ | ⟨x, e, hx⟩ | ⟨high, low, e, hhigh, hlow⟩
  · rw [e, List.singleton_append, basicLines.eq_def]
    simp [hq, hb, hc]
  · rw [e]
    show basicLines .escape (x :: rest) = _
    simp only [basicLines, hx]
  · rw [e]
    show basicLines (.code 4 0) ('0' :: '0' :: high :: low :: rest) = _
    have hnumber : 16 * (c.toNat / 16) + c.toNat % 16 = c.toNat := Nat.div_add_mod _ _
    have hzero : hexValue '0' = some 0 := rfl
    simp [basicLines, hzero, hhigh, hlow, hnumber, charOfCode_toNat]

/-- The first character of a character's escape is no quote. -/
theorem basicEscape_head (c : Char) : ∃ d ds, basicEscape c = d :: ds ∧ d ≠ '"' := by
  rcases basicEscape_cases c with ⟨e, hq, -⟩ | ⟨x, e, -⟩ | ⟨high, low, e, -⟩
  · exact ⟨c, [], e, hq⟩
  · exact ⟨_, _, e, by decide⟩
  · exact ⟨_, _, e, by decide⟩

/-- A character that stands for itself or is escaped is read behind quotes. -/
theorem basicLines_shown {q : Nat} (hq : q ≤ 2) (c : Char) (rest : List Char) :
    basicLines (behind q) ((if c = '\n' then ['\n'] else basicEscape c) ++ rest) =
      push (List.replicate q '"') (push [c] (basicLines .plain rest)) := by
  split
  case isTrue hn =>
    rw [List.singleton_append, basicLines_behind hq (by decide), hn, basicLines.eq_def]
    rfl
  case isFalse =>
    obtain ⟨d, ds, e, hd⟩ := basicEscape_head c
    rw [e, List.cons_append, basicLines_behind hq hd, ← List.cons_append, ← e,
      basicLines_basicEscape]

/-- **A basic string over several lines is read back**, behind up to two quotes that belong to it. -/
theorem basicLines_written {d : Char} (hd : d ≠ '"') (rest : List Char) :
    ∀ (cs : List Char) (q : Nat), q ≤ 2 →
      basicLines (behind q) (basicLinesEscape q cs ++ (List.replicate 3 '"' ++ d :: rest)) =
        some (List.replicate q '"' ++ cs, d :: rest)
  | [], 0, _ => by simp [behind, basicLinesEscape, basicLines, hd, List.replicate]
  | [], 1, _ => by simp [behind, basicLinesEscape, basicLines, hd, List.replicate]
  | [], 2, _ => by simp [behind, basicLinesEscape, basicLines, List.replicate]
  | [], _ + 3, h => by omega
  | c :: cs, q, h => by
    rw [basicLinesEscape]
    by_cases hc : c = '"'
    · rw [if_pos hc, hc]
      by_cases hq : q = 2
      · -- a third quote in a row is escaped, and a new run begins
        have ih := basicLines_written hd rest cs 0 (by omega)
        rw [behind] at ih
        rw [if_pos hq, hq, List.cons_append, basicLines_behind (Nat.le_refl 2) (by decide)]
        show push _ (basicLines .plain (basicEscape '"' ++ (basicLinesEscape 0 cs ++ _))) = _
        rw [basicLines_basicEscape, ih]
        rfl
      · rw [if_neg hq, List.cons_append]
        have ih := basicLines_written hd rest cs (q + 1) (by omega)
        have hstep : basicLines (behind q) ('"' ::
            (basicLinesEscape (q + 1) cs ++ (List.replicate 3 '"' ++ d :: rest))) =
            basicLines (behind (q + 1))
              (basicLinesEscape (q + 1) cs ++ (List.replicate 3 '"' ++ d :: rest)) := by
          cases q with
          | zero => rw [behind, basicLines.eq_def]; rfl
          | succ q =>
            have hq4 : q + 1 ≠ 4 := by omega
            rw [behind, basicLines.eq_def]
            simp [behind, hq4]
        rw [hstep, ih, List.replicate_succ']
        simp
    · rw [if_neg hc, List.append_assoc, basicLines_shown h c]
      have ih := basicLines_written hd rest cs 0 (by omega)
      rw [behind] at ih
      rw [ih]
      rfl

/-- A run inside a text is no longer than the longest one. -/
theorem le_longestRun (c : Char) : ∀ (cs : List Char) (n : Nat), n ≤ longestRun c n cs
  | [], n => Nat.le_refl n
  | d :: cs, n => by
    rw [longestRun]
    split
    · have := le_longestRun c cs (n + 1)
      omega
    · exact Nat.le_max_left _ _

/-- **A literal string over several lines is read back**, behind up to two apostrophes that belong to
it. -/
theorem literalLines_written {d : Char} (hd : d ≠ apostrophe) (rest : List Char) :
    ∀ (cs : List Char) (n : Nat), longestRun apostrophe n cs ≤ 2 →
      (∀ c ∈ cs, isGraphic c = true ∨ c = '\n') →
      literalLines n (cs ++ (List.replicate 3 apostrophe ++ d :: rest)) =
        some (List.replicate n apostrophe ++ cs, d :: rest)
  | [], 0, _, _ => by simp [literalLines, hd, List.replicate]
  | [], 1, _, _ => by simp [literalLines, hd, List.replicate]
  | [], 2, _, _ => by simp [literalLines, List.replicate]
  | [], _ + 3, h, _ => by simp [longestRun] at h
  | c :: cs, n, h, hcs => by
    have hrest : ∀ c ∈ cs, isGraphic c = true ∨ c = '\n' :=
      fun x hx => hcs x (List.mem_cons_of_mem _ hx)
    have hn : n ≤ 2 := Nat.le_trans (le_longestRun _ _ _) h
    rw [longestRun] at h
    rw [List.cons_append, literalLines]
    split at h
    case isTrue hc =>
      have hn4 : n ≠ 4 := by omega
      rw [if_pos hc, if_neg hn4, literalLines_written hd rest cs (n + 1) h hrest, hc,
        List.replicate_succ']
      simp
    case isFalse hc =>
      have hn3 : ¬ 3 ≤ n := by omega
      have ih := literalLines_written hd rest cs 0
        (Nat.le_trans (Nat.le_max_right _ _) h) hrest
      rw [if_neg hc, if_neg hn3, if_pos (hcs c List.mem_cons_self), ih]
      simp [push]

/-! ## The choice of a form -/

/-- What a text has to be like to be written in a form. -/
def Form.Suits (cs : List Char) : Form → Prop
  | .basic => True
  | .literal => Shows cs
  | .basicLines => True
  | .literalLines => longestRun apostrophe 0 cs ≤ 2 ∧ ∀ c ∈ cs, needsCode c = false

theorem not_mem_of_longestRun {c : Char} : ∀ {cs : List Char} {n : Nat},
    longestRun c n cs = 0 → c ∉ cs
  | [], _, _ => by simp
  | d :: cs, n, h => by
    rw [longestRun] at h
    split at h
    case isTrue =>
      have := le_longestRun c cs (n + 1)
      omega
    case isFalse hd =>
      have hrest : longestRun c 0 cs = 0 := by omega
      intro hmem
      rcases List.mem_cons.1 hmem with rfl | hmem
      · exact hd rfl
      · exact not_mem_of_longestRun hrest hmem

theorem shows_of_no_code {cs : List Char} (hcode : cs.any needsCode = false)
    (hend : cs.contains '\n' = false) (hquote : apostrophe ∉ cs) : Shows cs := by
  intro c hc
  have hneeds : needsCode c = false := by
    simpa using List.any_eq_false.1 hcode c hc
  have hline : c ≠ '\n' := by
    rintro rfl
    simp [hc] at hend
  exact ⟨fun he => hquote (he ▸ hc), isGraphic_of_not_needsCode hneeds hline⟩

/-- **The writer chooses a form that suits the text.** -/
theorem suits_formOf (cs : List Char) : (formOf cs).Suits cs := by
  unfold formOf
  dsimp only
  split
  · trivial
  split
  case isTrue h =>
    simp only [Bool.and_eq_true, Bool.not_eq_true', beq_iff_eq] at h
    exact shows_of_no_code h.1.1 h.1.2 (not_mem_of_longestRun h.2)
  split
  · trivial
  split
  case isTrue h =>
    simp only [Bool.and_eq_true, Bool.not_eq_true', decide_eq_true_eq] at h
    refine ⟨h.2, fun c hc => ?_⟩
    simpa using List.any_eq_false.1 h.1 c hc
  split
  · trivial
  · trivial

/-! ## Reading a written text -/

/-- What stands behind three opening quotes is read from the text on: a line end there is the writer's,
    or the text does not begin with one. -/
theorem skipLineEnd_opening {cs body : List Char} (h : '\n' ∉ cs → ∀ tail, body ≠ '\n' :: tail) :
    skipLineEnd (openingLineEnd cs ++ body) = body := by
  unfold openingLineEnd
  by_cases hend : '\n' ∈ cs
  · rw [if_pos (List.contains_iff_mem.2 hend)]
    rfl
  · rw [if_neg fun hc => hend (List.contains_iff_mem.1 hc), List.nil_append]
    unfold skipLineEnd
    split
    case h_1 tail => exact absurd rfl (h hend tail)
    case h_2 => rfl

/-- Over several lines a text without line ends does not begin with one. -/
theorem basicLinesEscape_head {cs : List Char} (h : '\n' ∉ cs) (d : Char) (rest tail : List Char)
    (hd : d ≠ '\n') : basicLinesEscape 0 cs ++ d :: rest ≠ '\n' :: tail := by
  intro he
  cases cs with
  | nil => exact hd (List.cons.inj he).1
  | cons c cs =>
    have hc : c ≠ '\n' := fun hc => h (hc ▸ List.mem_cons_self)
    rw [basicLinesEscape] at he
    by_cases hq : c = '"'
    · rw [if_pos hq, if_neg (by decide)] at he
      exact absurd (List.cons.inj he).1 (by decide)
    · rw [if_neg hq, if_neg hc] at he
      rcases basicEscape_cases c with ⟨e, -⟩ | ⟨x, e, -⟩ | ⟨high, low, e, -⟩
      · rw [e] at he
        exact hc (List.cons.inj he).1
      · rw [e] at he
        exact absurd (List.cons.inj he).1 (by decide)
      · rw [e] at he
        exact absurd (List.cons.inj he).1 (by decide)

/-- Two different characters do not open a form with three quotes. -/
theorem string_of_second {a b : Char} (h : b ≠ a) (cs : List Char) :
    string (a :: b :: cs) = lineString (a :: b :: cs) := by
  cases cs with
  | nil => rfl
  | cons c cs =>
    have h₁ : ¬ (a = '"' ∧ b = '"' ∧ c = '"') := fun h' => h (h'.2.1.trans h'.1.symm)
    have h₂ : ¬ (a = apostrophe ∧ b = apostrophe ∧ c = apostrophe) :=
      fun h' => h (h'.2.1.trans h'.1.symm)
    rw [string, if_neg h₁, if_neg h₂]

theorem string_of_third {a c : Char} (h : c ≠ a) (cs : List Char) :
    string (a :: a :: c :: cs) = lineString (a :: a :: c :: cs) := by
  have h₁ : ¬ (a = '"' ∧ a = '"' ∧ c = '"') := fun h' => h (h'.2.2.trans h'.1.symm)
  have h₂ : ¬ (a = apostrophe ∧ a = apostrophe ∧ c = apostrophe) :=
    fun h' => h (h'.2.2.trans h'.1.symm)
  rw [string, if_neg h₁, if_neg h₂]

/-- A text on one line is read back, whatever stands behind it. -/
theorem lineString_basic (cs rest : List Char) :
    lineString (writeAs cs .basic ++ rest) = some (cs, rest) := by
  show basicText .plain ((cs.flatMap basicEscape ++ ['"']) ++ rest) = _
  rw [List.append_assoc]
  exact basicText_written cs rest

theorem lineString_literal {cs : List Char} (h : Shows cs) (rest : List Char) :
    lineString (writeAs cs .literal ++ rest) = some (cs, rest) := by
  show literalText ((cs ++ [apostrophe]) ++ rest) = _
  rw [List.append_assoc]
  exact literalText_written h rest

/-- **Each form is read back**, in front of anything but a quote. -/
theorem string_writeAs {cs : List Char} {form : Form} (h : form.Suits cs) {d : Char} (hd : d ≠ '"')
    (hd' : d ≠ apostrophe) (rest : List Char) :
    string (writeAs cs form ++ d :: rest) = some (cs, d :: rest) := by
  cases form with
  | basic =>
    rw [← lineString_basic cs (d :: rest)]
    cases cs with
    | nil => exact string_of_third hd _
    | cons c cs =>
      obtain ⟨x, xs, e, hx⟩ := basicEscape_head c
      simp only [writeAs, List.flatMap_cons, e, List.cons_append]
      exact string_of_second hx _
  | literal =>
    rw [← lineString_literal h (d :: rest)]
    cases cs with
    | nil => exact string_of_third hd' _
    | cons c cs => exact string_of_second (h c List.mem_cons_self).1 _
  | basicLines =>
    simp only [writeAs, List.append_assoc]
    show basicLines .plain (skipLineEnd (openingLineEnd cs ++
      (basicLinesEscape 0 cs ++ (List.replicate 3 '"' ++ d :: rest)))) = _
    rw [skipLineEnd_opening]
    · exact basicLines_written hd rest cs 0 (by omega)
    · intro hend tail
      exact basicLinesEscape_head hend '"' _ tail (by decide)
  | literalLines =>
    simp only [writeAs, List.append_assoc]
    show literalLines 0 (skipLineEnd (openingLineEnd cs ++
      (cs ++ (List.replicate 3 apostrophe ++ d :: rest)))) = _
    rw [skipLineEnd_opening]
    · refine literalLines_written hd' rest cs 0 h.1 fun c hc => ?_
      by_cases hn : c = '\n'
      · exact Or.inr hn
      · exact Or.inl (isGraphic_of_not_needsCode (h.2 c hc) hn)
    · intro hend tail he
      cases cs with
      | nil => exact absurd (List.cons.inj he).1 (by decide)
      | cons c cs => exact hend ((List.cons.inj he).1 ▸ List.mem_cons_self)

/-- **A written text is read back.** -/
theorem string_writeText (s : String) {d : Char} (hd : d ≠ '"') (hd' : d ≠ apostrophe)
    (rest : List Char) : string (writeText s ++ d :: rest) = some (s.toList, d :: rest) :=
  string_writeAs (suits_formOf s.toList) hd hd' rest

/-! ## Written texts stand on plain lines -/

/-- No character of a text is a carriage return, so its line ends are line feeds alone. -/
def Plain (cs : List Char) : Prop := '\r' ∉ cs

instance (cs : List Char) : Decidable (Plain cs) :=
  inferInstanceAs (Decidable ('\r' ∉ cs))

theorem Plain.append {cs ds : List Char} (h : Plain cs) (h' : Plain ds) : Plain (cs ++ ds) := by
  intro hmem
  rcases List.mem_append.1 hmem with hmem | hmem
  · exact h hmem
  · exact h' hmem

theorem Plain.cons {c : Char} {cs : List Char} (hc : c ≠ '\r') (h : Plain cs) : Plain (c :: cs) := by
  intro hmem
  rcases List.mem_cons.1 hmem with he | hmem
  · exact hc he.symm
  · exact h hmem

theorem plain_nil : Plain [] := List.not_mem_nil

theorem Plain.flatMap {α : Type} {l : List α} {f : α → List Char} (h : ∀ a ∈ l, Plain (f a)) :
    Plain (l.flatMap f) := by
  intro hmem
  obtain ⟨a, ha, hmem⟩ := List.mem_flatMap.1 hmem
  exact h a ha hmem

theorem plain_basicEscape (c : Char) : Plain (basicEscape c) := by
  rcases basicEscape_cases c with ⟨e, -, -, hc⟩ | ⟨x, e, hx⟩ | ⟨high, low, e, hhigh, hlow⟩
  · rw [e]
    refine .cons (fun he => ?_) plain_nil
    rw [he] at hc
    exact absurd hc (by decide)
  · rw [e]
    refine .cons (by decide) (.cons (fun he => ?_) plain_nil)
    rw [he] at hx
    exact absurd hx nofun
  · rw [e]
    refine .cons (by decide) (.cons (by decide) (.cons (by decide) (.cons (by decide)
      (.cons (fun he => ?_) (.cons (fun he => ?_) plain_nil)))))
    · rw [he] at hhigh
      exact absurd hhigh nofun
    · rw [he] at hlow
      exact absurd hlow nofun

theorem plain_basicLinesEscape : ∀ (cs : List Char) (q : Nat), Plain (basicLinesEscape q cs)
  | [], _ => plain_nil
  | c :: cs, q => by
    rw [basicLinesEscape]
    split
    · split
      · exact .cons (by decide) (.cons (by decide) (plain_basicLinesEscape cs 0))
      · exact .cons (by decide) (plain_basicLinesEscape cs (q + 1))
    · refine .append ?_ (plain_basicLinesEscape cs 0)
      split
      · exact .cons (by decide) plain_nil
      · exact plain_basicEscape c

/-- A carriage return is always written by an escape. -/
theorem plain_writeAs {cs : List Char} {form : Form} (h : form.Suits cs) :
    Plain (writeAs cs form) := by
  have hthree : ∀ c, c ≠ '\r' → Plain (List.replicate 3 c) := fun c hc =>
    .cons hc (.cons hc (.cons hc plain_nil))
  have hopening : Plain (openingLineEnd cs) := by
    unfold openingLineEnd
    split
    · exact .cons (by decide) plain_nil
    · exact plain_nil
  cases form with
  | basic =>
    exact .append (.cons (by decide) (.flatMap fun c _ => plain_basicEscape c))
      (.cons (by decide) plain_nil)
  | literal =>
    refine .append (.cons (by decide) fun hmem => ?_) (.cons (by decide) plain_nil)
    exact absurd (h _ hmem).2 (by decide)
  | basicLines =>
    exact .append (.append (.append (hthree _ (by decide)) hopening) (plain_basicLinesEscape cs 0))
      (hthree _ (by decide))
  | literalLines =>
    refine .append (.append (.append (hthree _ (by decide)) hopening) fun hmem => ?_)
      (hthree _ (by decide))
    exact absurd (h.2 _ hmem) (by decide)

theorem plain_writeText (s : String) : Plain (writeText s) :=
  plain_writeAs (suits_formOf s.toList)

/-- Plain text has no line ends of another kind to be replaced. -/
theorem plainLineEnds_of_plain : ∀ {cs : List Char}, Plain cs → plainLineEnds cs = cs
  | [], _ => by rw [plainLineEnds]
  | c :: cs, h => by
    have hc : c ≠ '\r' := fun he => h (he ▸ List.mem_cons_self)
    have hrest : Plain cs := fun hmem => h (List.mem_cons_of_mem _ hmem)
    rw [plainLineEnds, plainLineEnds_of_plain hrest]
    intro rest he
    exact absurd he hc

end ConnPool.Toml
