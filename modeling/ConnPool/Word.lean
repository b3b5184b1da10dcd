/-
  Numbers in a sixty-four bit word.

  Settings and reports hold whole numbers below `wordLimit`.  A number that is too large is refused
  when it is read (`readWord`), and stops at the largest word when it is reported (`saturate`).  The sum
  of two settings is no setting: who needs it as a word breaks off if it does not fit.

  `readWord` accepts one plus sign and then decimal digits, at least one, with leading zeros allowed.
-/

namespace ConnPool

/-- The number of values of a word, `2 ^ 64`; every word is below it. -/
def wordLimit : Nat := 18446744073709551616

/-- The number of values of a word with a sign that are not negative, `2 ^ 63`. -/
def signedLimit : Nat := 9223372036854775808

/-- The word nearest to `n`: `n` itself, or the largest word if `n` is larger. -/
def saturate (n : Nat) : Nat :=
  if n < wordLimit then n else wordLimit - 1

/-- The digits of a word, without a sign. -/
def readDigits (cs : List Char) : Option Nat :=
  if cs ≠ [] ∧ cs.all Char.isDigit then
    let n := Nat.ofDigitChars 10 cs 0
    if n < wordLimit then some n else none
  else none

/-- The word written in decimal as `cs`, if it is one. -/
def readWord : List Char → Option Nat
  | '+' :: cs => readDigits cs
  | cs => readDigits cs

/-! ## Laws -/

theorem saturate_of_lt {n : Nat} (h : n < wordLimit) : saturate n = n := by
  simp [saturate, h]

example : readWord "+007".toList = some 7 := by decide +kernel
example : readWord "18446744073709551616".toList = none := by decide +kernel
example : readWord "+".toList = none := by decide +kernel

end ConnPool
