/-
  Binary floating-point numbers of sixty-four bits, in exact arithmetic.

  A magnitude is `m * 2 ^ q` or infinite.  Two rules connect it with decimal text, and both are
  stated on natural numbers, without a rounded operation anywhere.

  **Reading** (`ofDecimal`).  A decimal number is rounded to the nearest magnitude with 53 bits of
  `m` and `-1074 ≤ q ≤ 971`, and a tie goes to the even `m`; what is too large is infinite.

  **Writing** (`shortest`).  All reals between the midpoints to the two neighbours read back as the
  magnitude (the midpoints too when `m` is even).  For one digit, two digits and so on, the two
  decimal neighbours of the magnitude with that many digits are tried, and the first number of
  digits with a hit wins; of two hits the nearer is taken, and the upper one of a tie.  Seventeen
  digits always suffice.  The text (`positionalText`) never uses an exponent and always has a point.
-/

namespace ConnPool

/-- The magnitude of a binary floating-point number: `m * 2 ^ q`, or infinite. -/
inductive Binary64
  | finite (m : Nat) (q : Int)
  | infinite
deriving DecidableEq, Repr

namespace Binary64

/-- The quotient of two naturals as a fraction, with a power of `base` moved to the side on which its
exponent is not negative. -/
def scale (base : Nat) (e : Int) (n d : Nat) : Nat × Nat :=
  if 0 ≤ e then (n * Nat.pow base e.toNat, d) else (n, d * Nat.pow base (-e).toNat)

/-- `n / d` to the nearest natural, a tie to the even one. -/
def roundToEven (n d : Nat) : Nat :=
  let f := n / d
  let r := n % d
  if 2 * r < d then f else if d < 2 * r then f + 1 else if f % 2 = 0 then f else f + 1

/-- The largest `e` with `base ^ e ≤ n / d`, given an `e` that is right or one too large. -/
def settleExponent (base n d : Nat) (e : Int) : Int :=
  let (n', d') := scale base (-e) n d
  if d' ≤ n' then e else e - 1

/-- The least significand of a magnitude that is not subnormal, `2 ^ 52`. -/
def leastNormal : Nat := 4503599627370496

/-- The magnitude nearest to the fraction `n / d`, which is not zero. -/
def nearest (n d : Nat) : Binary64 :=
  let k := settleExponent 2 n d ((Nat.log2 n : Int) - (Nat.log2 d : Int))
  let q := max (k - 52) (-1074)
  let (n', d') := scale 2 (-q) n d
  let m := roundToEven n' d'
  -- rounding up may carry into one more bit
  let (m, q) := if m = 2 * leastNormal then (leastNormal, q + 1) else (m, q)
  if 971 < q then .infinite else .finite m q

/-- The magnitude nearest to `digits * 10 ^ e`.  An exponent far outside the range is answered
without computing the power. -/
def ofDecimal (digits : Nat) (e : Int) : Binary64 :=
  let size : Int := (Nat.toDigits 10 digits).length
  if digits = 0 then .finite 0 0
  else if 400 < e + size then .infinite
  else if e + size < -400 then .finite 0 0
  else
    let (n, d) := scale 10 e digits 1
    nearest n d

/-! ## Shortest decimal -/

/-- A decimal number: `digits * 10 ^ exponent`. -/
structure Decimal where
  digits : Nat
  exponent : Int
deriving DecidableEq, Repr

/-- The decimal neighbours of `v / d` with `places` digits that lie in the interval from `lo / d` to
`hi / d`, ends included if `closed`; the nearer of two, and the upper one of a tie. -/
def onGrid (v lo hi d : Nat) (closed : Bool) (top : Int) (places : Nat) : Option Decimal :=
  let p := top - (places : Int) + 1
  let (v', d') := scale 10 (-p) v d
  let (lo', _) := scale 10 (-p) lo d
  let (hi', _) := scale 10 (-p) hi d
  let inside (c : Nat) : Bool :=
    if closed then lo' ≤ c * d' && c * d' ≤ hi' else lo' < c * d' && c * d' < hi'
  let below := v' / d'
  let above := below + 1
  match inside below, inside above with
  | true, true => some ⟨if 2 * (v' % d') < d' then below else above, p⟩
  | true, false => some ⟨below, p⟩
  | false, true => some ⟨above, p⟩
  | false, false => none

/-- The shortest decimal number that reads back as `m * 2 ^ q`, nearest first. -/
def shortest (m : Nat) (q : Int) : Decimal :=
  if m = 0 then ⟨0, 0⟩
  else
    -- below a power of two the neighbour is only half as far away
    let low := if m = leastNormal ∧ -1074 < q then 4 * m - 1 else 4 * m - 2
    let (v, d) := scale 2 (q - 2) (4 * m) 1
    let (lo, _) := scale 2 (q - 2) low 1
    let (hi, _) := scale 2 (q - 2) (4 * m + 2) 1
    let top := settleExponent 10 v d
      ((Nat.toDigits 10 v).length - (Nat.toDigits 10 d).length : Int)
    ((List.range 17).findSome? fun i => onGrid v lo hi d (m % 2 = 0) top (i + 1)).getD
      ⟨v / d, 0⟩

/-! ## Text -/

/-- A decimal number without an exponent, with at least one digit on both sides of the point. -/
def Decimal.positional (x : Decimal) : String :=
  let digits := Nat.toDigits 10 x.digits
  if 0 ≤ x.exponent then
    String.ofList (digits ++ (if x.digits = 0 then [] else List.replicate x.exponent.toNat '0') ++
      ['.', '0'])
  else
    let places := (-x.exponent).toNat
    let padded := List.replicate (places + 1 - digits.length) '0' ++ digits
    let whole := padded.take (padded.length - places)
    let rest := ((padded.drop (padded.length - places)).reverse.dropWhile (· == '0')).reverse
    String.ofList (whole ++ '.' :: (if rest.isEmpty then ['0'] else rest))

/-- A magnitude as text: its shortest decimal, or `inf`. -/
def positionalText : Binary64 → String
  | .infinite => "inf"
  | .finite m q => (shortest m q).positional

example : (ofDecimal 15 (-1)).positionalText = "1.5" := by decide +kernel
example : (ofDecimal 1 (-1)).positionalText = "0.1" := by decide +kernel
example : (ofDecimal 1 16).positionalText = "10000000000000000.0" := by decide +kernel
example : (ofDecimal 9007199254740993 0).positionalText = "9007199254740992.0" := by decide +kernel
example : ofDecimal 1 309 = .infinite := by decide +kernel
example : (ofDecimal 5 0).positionalText = "5.0" := by decide +kernel

end Binary64

end ConnPool
