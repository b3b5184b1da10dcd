/-
  A written number is read back.

  A number of a document may be many things, and the reader tries the longer readings first: a date and a
  time begin with digits, and so does a floating-point number.  All of them want another character behind
  some of their digits, so in front of a line end they fail (`char_behind_digits`), and what is left is
  the integer.
-/
import ConnPool.Toml.Numbers

namespace ConnPool.Toml

open ConnPool.Text ConnPool.Text.Reader

/-! ## The digits of a number -/

/-- Text that consists of decimal digits. -/
def AllDigits (cs : List Char) : Prop :=
  ∀ c ∈ cs, c.isDigit = true

theorem allDigits_toDigits (n : Nat) : AllDigits (Nat.toDigits 10 n) :=
  fun _ hc => Nat.isDigit_of_mem_toDigits (by omega) (by omega) hc

theorem AllDigits.foldl {cs : List Char} (h : AllDigits cs) (n : Nat) :
    cs.foldl (fun n c => 10 * n + (if c.isDigit then c.toNat - 48 else (c.toNat ||| 32) - 87)) n =
      Nat.ofDigitChars 10 cs n := by
  induction cs generalizing n with
  | nil => rfl
  | cons c cs ih =>
    rw [List.foldl_cons, if_pos (h c List.mem_cons_self),
      ih fun d hd => h d (List.mem_cons_of_mem _ hd)]
    rfl

/-- **Digits stand for their number.** -/
theorem valueOf_toDigits (n : Nat) : valueOf 10 (Nat.toDigits 10 n) = n :=
  ((allDigits_toDigits n).foldl 0).trans Nat.ofDigitChars_ten_toDigits

/-- Only zero begins with a zero. -/
theorem toDigits_of_head_zero {n : Nat} (h : (Nat.toDigits 10 n).head? = some '0') : n = 0 := by
  induction n using Nat.strongRecOn with
  | ind n ih =>
    rw [Nat.toDigits_eq_if (by omega)] at h
    split at h
    case isTrue hlt =>
      have hchar : n.digitChar = '0' := by simpa using h
      have hdigit : ∀ k, k < 10 → k.digitChar = '0' → k = 0 := by decide
      exact hdigit n hlt hchar
    case isFalse hge =>
      obtain ⟨c, cs, hcs⟩ := List.exists_cons_of_ne_nil (Nat.toDigits_ne_nil (n := n / 10) (b := 10))
      have hfront : (Nat.toDigits 10 (n / 10)).head? = some '0' := by
        rw [hcs] at h ⊢
        exact h
      have := ih (n / 10) (by omega) hfront
      omega

/-! ## Behind digits -/

/-- What a reader does that reads digits: it fails, or leaves digits behind those it has read. -/
def LeavesDigits (r : Reader α) : Prop :=
  ∀ cs rest : List Char, AllDigits cs → r (cs ++ '\n' :: rest) = none ∨
    ∃ a others, AllDigits others ∧ r (cs ++ '\n' :: rest) = some (a, others ++ '\n' :: rest)

theorem leavesDigits_satisfy {p : Char → Bool} (hn : p '\n' = false) : LeavesDigits (satisfy p) := by
  intro cs rest h
  cases cs with
  | nil => exact Or.inl (satisfy_of_false hn)
  | cons c cs =>
    cases hc : p c with
    | false => exact Or.inl (satisfy_of_false hc)
    | true => exact Or.inr ⟨c, cs, fun d hd => h d (List.mem_cons_of_mem _ hd), satisfy_of_true hc⟩

theorem leavesDigits_char {x : Char} (hn : x ≠ '\n') : LeavesDigits (char x) := by
  intro cs rest h
  cases cs with
  | nil => exact Or.inl (char_of_ne hn.symm)
  | cons c cs =>
    by_cases hc : c = x
    · subst hc
      exact Or.inr ⟨(), cs, fun d hd => h d (List.mem_cons_of_mem _ hd), char_self⟩
    · exact Or.inl (char_of_ne hc)

theorem LeavesDigits.bind {r : Reader α} {f : α → Reader β} (hr : LeavesDigits r)
    (hf : ∀ a, LeavesDigits (f a)) : LeavesDigits (r >>= f) := by
  intro cs rest h
  rcases hr cs rest h with hnone | ⟨a, others, hothers, hsome⟩
  · exact Or.inl (bind_of_none hnone)
  · rw [bind_of_some hsome]
    exact hf a others rest hothers

theorem leavesDigits_pure (a : α) : LeavesDigits (pure a : Reader α) :=
  fun cs _ h => Or.inr ⟨a, cs, h, rfl⟩

theorem leavesDigits_exactly : ∀ count, LeavesDigits (exactly count)
  | 0 => leavesDigits_pure []
  | count + 1 =>
    (leavesDigits_satisfy (p := Char.isDigit) (by decide)).bind fun c =>
      (leavesDigits_exactly count).bind fun cs => leavesDigits_pure (c :: cs)

theorem leavesDigits_pair (low high : Nat) : LeavesDigits (pair low high) := by
  refine (leavesDigits_exactly 2).bind fun cs => ?_
  split
  · exact leavesDigits_pure cs
  · exact fun _ _ _ => Or.inl rfl

/-- Before the line end there are only digits. -/
theorem char_of_digits {x : Char} (hx : x.isDigit = false) (hn : x ≠ '\n') {cs : List Char}
    (h : AllDigits cs) (rest : List Char) : char x (cs ++ '\n' :: rest) = none := by
  cases cs with
  | nil => exact char_of_ne hn.symm
  | cons c cs =>
    refine char_of_ne ?_
    rintro rfl
    rw [h c List.mem_cons_self] at hx
    exact absurd hx (by decide)

/-- So nothing is read that wants another character behind digits. -/
theorem LeavesDigits.then_char {r : Reader α} (hr : LeavesDigits r) {x : Char}
    (hx : x.isDigit = false) (hn : x ≠ '\n') {f : α → Unit → Reader β} {cs : List Char}
    (h : AllDigits cs) (rest : List Char) :
    (r >>= fun a => char x >>= f a) (cs ++ '\n' :: rest) = none := by
  rcases hr cs rest h with hnone | ⟨a, others, hothers, hsome⟩
  · exact bind_of_none hnone
  rw [bind_of_some hsome]
  exact bind_of_none (char_of_digits hx hn hothers rest)

/-! ## The readings of digits -/

section Readings

variable {cs : List Char}

theorem dateTime_of_digits (h : AllDigits cs) (rest : List Char) :
    dateTime (cs ++ '\n' :: rest) = none := by
  have hdate : date (cs ++ '\n' :: rest) = none :=
    (leavesDigits_exactly 4).then_char (by decide) (by decide) h rest
  have htime : time (cs ++ '\n' :: rest) = none :=
    (leavesDigits_pair 0 23).then_char (by decide) (by decide) h rest
  rw [dateTime, orElse_of_none (bind_of_none hdate), bind_of_none htime]

theorem marked_of_digits (h : AllDigits cs) {mark : Char} (hmark : mark.isDigit = false)
    (hn : mark ≠ '\n') (base : Nat) (isDigit : Char → Bool) (rest : List Char) :
    marked mark base isDigit (cs ++ '\n' :: rest) = none :=
  (leavesDigits_char (x := '0') (by decide)).then_char hmark hn h rest

theorem sign_of_digits (h : AllDigits cs) (rest : List Char) :
    sign (cs ++ '\n' :: rest) = some (false, cs ++ '\n' :: rest) := by
  have hno : satisfy (fun c => c = '+' || c = '-') (cs ++ '\n' :: rest) = none := by
    cases cs with
    | nil => exact satisfy_of_false (by decide)
    | cons c cs =>
      refine satisfy_of_false ?_
      have hc := h c List.mem_cons_self
      by_cases hs : c = '+' ∨ c = '-'
      · rcases hs with rfl | rfl
        · exact absurd hc (by decide)
        · exact absurd hc (by decide)
      · simpa using hs
  rw [sign, bind_of_some (opt_of_none hno)]
  rfl

theorem moreDigits_of_digits (h : AllDigits cs) (rest : List Char) :
    moreDigits Char.isDigit (cs ++ '\n' :: rest) = (cs, '\n' :: rest) := by
  induction cs with
  | nil =>
    rw [List.nil_append, moreDigits.eq_def]
    simp
  | cons c cs ih =>
    rw [List.cons_append, moreDigits.eq_def]
    simp only [h c List.mem_cons_self, if_true, ih fun d hd => h d (List.mem_cons_of_mem _ hd)]

/-- The digits of a number have no leading zero. -/
theorem wholeDigits_toDigits (n : Nat) (rest : List Char) :
    wholeDigits (Nat.toDigits 10 n ++ '\n' :: rest) = some (Nat.toDigits 10 n, '\n' :: rest) := by
  obtain ⟨c, cs, hcs⟩ := List.exists_cons_of_ne_nil (Nat.toDigits_ne_nil (n := n) (b := 10))
  have hdigits : AllDigits (c :: cs) := hcs ▸ allDigits_toDigits n
  by_cases hzero : c = '0'
  · have hn : n = 0 := toDigits_of_head_zero (by rw [hcs, hzero]; rfl)
    rw [hn]
    rfl
  have hfirst : satisfy (fun c => c.isDigit && c ≠ '0') (c :: (cs ++ '\n' :: rest)) =
      some (c, cs ++ '\n' :: rest) :=
    satisfy_of_true (by simpa [hzero] using hdigits c List.mem_cons_self)
  have hothers : (fun cs => some (moreDigits Char.isDigit cs) : Reader (List Char))
      (cs ++ '\n' :: rest) = some (cs, '\n' :: rest) :=
    congrArg some (moreDigits_of_digits (fun d hd => hdigits d (List.mem_cons_of_mem _ hd)) rest)
  rw [hcs, List.cons_append, wholeDigits]
  refine orElse_of_some ?_
  rw [bind_of_some hfirst, bind_of_some hothers]
  rfl

theorem finiteFloat_toDigits (n : Nat) (rest : List Char) :
    finiteFloat (Nat.toDigits 10 n ++ '\n' :: rest) = none := by
  have hfraction : (do char '.'; digits Char.isDigit : Reader (List Char)) ('\n' :: rest) = none :=
    bind_of_none (char_of_ne (by decide))
  have hexponent : exponent ('\n' :: rest) = none := bind_of_none (satisfy_of_false (by decide))
  rw [finiteFloat, bind_of_some (sign_of_digits (allDigits_toDigits n) rest),
    bind_of_some (wholeDigits_toDigits n rest), bind_of_some (opt_of_none hfraction)]
  exact bind_of_none hexponent

theorem specialFloat_of_digits (h : AllDigits cs) (rest : List Char) :
    specialFloat (cs ++ '\n' :: rest) = none := by
  have hletter : ∀ x : Char, x.isDigit = false → x ≠ '\n' → ∀ word,
      literal (x :: word) (cs ++ '\n' :: rest) = none := by
    intro x hx hn word
    rw [literal, char_of_digits hx hn h rest]
    rfl
  rw [specialFloat, bind_of_some (sign_of_digits h rest),
    orElse_of_none (bind_of_none (hletter 'i' (by decide) (by decide) _)),
    bind_of_none (hletter 'n' (by decide) (by decide) _)]

theorem decimalInteger_toDigits {n : Nat} (hn : n < signedLimit) (rest : List Char) :
    decimalInteger (Nat.toDigits 10 n ++ '\n' :: rest) = some (.integer n, '\n' :: rest) := by
  rw [decimalInteger, bind_of_some (sign_of_digits (allDigits_toDigits n) rest),
    bind_of_some (wholeDigits_toDigits n rest), valueOf_toDigits]
  show signedWord false n ('\n' :: rest) = _
  rw [signedWord, if_neg Bool.false_ne_true, if_pos hn]
  rfl

end Readings

/-- **A written number is read back**: nothing longer can be read at its digits. -/
theorem number_toDigits {n : Nat} (hn : n < signedLimit) (rest : List Char) :
    number (Nat.toDigits 10 n ++ '\n' :: rest) = some (.integer n, '\n' :: rest) := by
  have hdigits := allDigits_toDigits n
  rw [number, orElse_of_none (dateTime_of_digits hdigits rest),
    orElse_of_none (finiteFloat_toDigits n rest),
    orElse_of_none (specialFloat_of_digits hdigits rest), integer,
    orElse_of_none (marked_of_digits hdigits (by decide) (by decide) _ _ rest),
    orElse_of_none (marked_of_digits hdigits (by decide) (by decide) _ _ rest),
    orElse_of_none (marked_of_digits hdigits (by decide) (by decide) _ _ rest)]
  exact decimalInteger_toDigits hn rest

end ConnPool.Toml
