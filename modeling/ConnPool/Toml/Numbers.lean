/-
  Numbers, truth values and date-times of a TOML document.

  Digits may be separated by single underscores, each between two digits.  An integer has no leading
  zeros and fits in a signed sixty-four bit word; those in base sixteen, eight or two have a mark in
  front and no sign.  A floating-point number needs a fraction or an exponent, and one too large for
  any magnitude is refused, except that a negative one stands for the negative infinity.

  A date-time is a date, a time of day, or both with a `T` or a blank between them, and only both
  together can have an offset.  Every part is checked against the calendar; a leap second is always
  allowed.  Of a fraction of a second nine digits count.
-/
import ConnPool.Text.Reader
import ConnPool.Toml.Value
import ConnPool.Word

namespace ConnPool.Toml

open ConnPool.Text ConnPool.Text.Reader

/-! ## Digits -/

/-- The digits behind a first one, with underscores between digits left out. -/
def moreDigits (isDigit : Char → Bool) : List Char → List Char × List Char
  | [] => ([], [])
  | c :: rest =>
    if isDigit c then
      let (digits, rest') := moreDigits isDigit rest
      (c :: digits, rest')
    else if c = '_' then
      match rest with
      | d :: rest' =>
        if isDigit d then
          let (digits, rest'') := moreDigits isDigit rest'
          (d :: digits, rest'')
        else ([], c :: rest)
      | [] => ([], c :: rest)
    else ([], c :: rest)

/-- At least one digit, with single underscores between digits left out. -/
def digits (isDigit : Char → Bool) : Reader (List Char) := do
  let first ← satisfy isDigit
  let others ← fun cs => some (moreDigits isDigit cs)
  pure (first :: others)

/-- The number that digits of a base stand for. -/
def valueOf (base : Nat) (cs : List Char) : Nat :=
  cs.foldl (fun n c => base * n + (if c.isDigit then c.toNat - 48 else (c.toNat ||| 32) - 87)) 0

/-- Whether there is a minus sign; a plus sign is read too. -/
def sign : Reader Bool := do
  match ← opt (satisfy fun c => c = '+' || c = '-') with
  | some c => pure (c = '-')
  | none => pure false

/-- Decimal digits without a leading zero. -/
def wholeDigits : Reader (List Char) :=
  (do
    let first ← satisfy fun c => c.isDigit && c ≠ '0'
    let others ← fun cs => some (moreDigits Char.isDigit cs)
    pure (first :: others)) <|>
  (do char '0'; pure ['0'])

/-! ## Integers -/

/-- An integer that fits in a signed word. -/
def signedWord (negative : Bool) (n : Nat) : Reader Value :=
  if negative then
    if n ≤ signedLimit then pure (.integer (-(n : Int))) else failure
  else if n < signedLimit then pure (.integer n) else failure

/-- An integer behind the mark of its base. -/
def marked (mark : Char) (base : Nat) (isDigit : Char → Bool) : Reader Value := do
  char '0'
  char mark
  signedWord false (valueOf base (← digits isDigit))

def decimalInteger : Reader Value := do
  let negative ← sign
  signedWord negative (valueOf 10 (← wholeDigits))

def isHexDigit (c : Char) : Bool :=
  c.isDigit || ('a' ≤ c && c ≤ 'f') || ('A' ≤ c && c ≤ 'F')

/-- An integer; behind a zero and the mark of a base only digits of that base can follow. -/
def integer : Reader Value :=
  marked 'x' 16 isHexDigit <|> marked 'o' 8 (fun c => '0' ≤ c && c ≤ '7') <|>
    marked 'b' 2 (fun c => c = '0' || c = '1') <|> decimalInteger

/-! ## Floating-point numbers -/

/-- A finite decimal number as a value. -/
def floatOf (negative : Bool) (digits : List Char) (exponent : Int) : Reader Value :=
  match Binary64.ofDecimal (valueOf 10 digits) exponent with
  | .infinite => if negative then pure (.float (.number true .infinite)) else failure
  | magnitude => pure (.float (.number negative magnitude))

/-- The power of ten behind an `e`. -/
def exponent : Reader Int := do
  let _ ← satisfy fun c => c = 'e' || c = 'E'
  let negative ← sign
  let n := valueOf 10 (← digits Char.isDigit)
  pure (if negative then -(n : Int) else n)

/-- A number with a fraction, an exponent or both. -/
def finiteFloat : Reader Value := do
  let negative ← sign
  let whole ← wholeDigits
  let fraction ← opt (do char '.'; digits Char.isDigit)
  match fraction with
  | some places =>
    let e ← opt exponent
    floatOf negative (whole ++ places) (e.getD 0 - (places.length : Int))
  | none => floatOf negative whole (← exponent)

/-- Infinity, or no number. -/
def specialFloat : Reader Value := do
  let negative ← sign
  (do literal ['i', 'n', 'f']; pure (.float (.number negative .infinite))) <|>
    (do literal ['n', 'a', 'n']; pure (.float .nan))

/-! ## Truth values -/

def boolean : Reader Value :=
  (do literal ['t', 'r', 'u', 'e']; pure (.boolean true)) <|>
    (do literal ['f', 'a', 'l', 's', 'e']; pure (.boolean false))

/-! ## Date-times -/

/-- Exactly `count` decimal digits, as they are written. -/
def exactly : Nat → Reader (List Char)
  | 0 => pure []
  | count + 1 => do
    let c ← satisfy Char.isDigit
    pure (c :: (← exactly count))

/-- Exactly two digits, whose number lies between the two bounds. -/
def pair (low high : Nat) : Reader (List Char) := do
  let cs ← exactly 2
  if low ≤ valueOf 10 cs ∧ valueOf 10 cs ≤ high then pure cs else failure

/-- The number of days of a month. -/
def daysOf (year month : Nat) : Nat :=
  if month = 2 then
    if year % 4 = 0 ∧ (year % 100 ≠ 0 ∨ year % 400 = 0) then 29 else 28
  else if month = 4 ∨ month = 6 ∨ month = 9 ∨ month = 11 then 30
  else 31

/-- A date, in its canonical text. -/
def date : Reader (List Char) := do
  let year ← exactly 4
  char '-'
  let month ← pair 1 12
  char '-'
  let day ← pair 1 31
  if valueOf 10 day ≤ daysOf (valueOf 10 year) (valueOf 10 month) then
    pure (year ++ '-' :: month ++ '-' :: day)
  else failure

/-- The canonical text of a fraction of a second: nine digits count, and zeros at the end do not. -/
def fractionText (places : List Char) : List Char :=
  match ((places.take 9).reverse.dropWhile (· == '0')).reverse with
  | [] => []
  | cs => '.' :: cs

/-- A time of day, in its canonical text. -/
def time : Reader (List Char) := do
  let hour ← pair 0 23
  char ':'
  let minute ← pair 0 59
  char ':'
  let second ← pair 0 60
  let fraction ← opt (do char '.'; run1 Char.isDigit)
  pure (hour ++ ':' :: minute ++ ':' :: second ++ fractionText (fraction.getD []))

/-- An offset, in its canonical text; an offset of nothing has a plus sign. -/
def offset : Reader (List Char) :=
  (do
    let _ ← satisfy fun c => c = 'Z' || c = 'z'
    pure ['Z']) <|>
  (do
    let mark ← satisfy fun c => c = '+' || c = '-'
    let hour ← pair 0 23
    char ':'
    let minute ← pair 0 59
    let mark := if valueOf 10 (hour ++ minute) = 0 then '+' else mark
    pure (mark :: hour ++ ':' :: minute))

/-- The time of day behind a date, with its offset if it has one. -/
def timeBehindDate : Reader (List Char) := do
  let _ ← satisfy fun c => c = 'T' || c = 't' || c = ' '
  let clock ← time
  let zone ← opt offset
  pure ('T' :: clock ++ zone.getD [])

def dateTime : Reader Value :=
  (do
    let day ← date
    let clock ← opt timeBehindDate
    pure (.dateTime (String.ofList (day ++ clock.getD [])))) <|>
  (do pure (.dateTime (String.ofList (← time))))

/-! ## All of them -/

/-- A number or a date-time.  The longer readings come first: a date begins like an integer, and so
does a floating-point number. -/
def number : Reader Value :=
  dateTime <|> finiteFloat <|> specialFloat <|> integer

end ConnPool.Toml
