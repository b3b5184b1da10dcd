/-
  The two written forms of a span of time.

  **Settings.**  A setting is a whole number with a unit: `ms` for milliseconds, `s` for seconds, `m`
  for minutes, and seconds when no unit is written.  Blanks may stand around the setting and between
  the number and its unit.  Both the number and the seconds that it stands for have to fit in a word.
  `settingText` writes a span back with the largest unit that divides its whole milliseconds, and
  zero as `0ms`.

  **Reports.**  A report shows a span in full (`reportText`): in the largest of the units `s`, `ms`,
  `µs` and `ns` in which it is at least one, with as many decimal places as it has, so that no two
  spans look alike.
-/
import ConnPool.Duration.Basic
import ConnPool.Text.Blank
import ConnPool.Word

namespace ConnPool.Duration

open ConnPool.Text

/-! ## Settings -/

/-- A number of minutes as a span, if its seconds fit in a word. -/
def ofMinutes? (n : Nat) : Option Duration :=
  if n * 60 < wordLimit then some (ofSecs (n * 60)) else none

/-- The span that a setting stands for.  The unit is looked for at the end, so the text is matched
from behind. -/
def readSetting (s : String) : Option Duration :=
  let cs := trim s.toList
  match cs.reverse with
  | 's' :: 'm' :: number => (readWord (trim number.reverse)).map ofMillis
  | 's' :: number => (readWord (trim number.reverse)).map ofSecs
  | 'm' :: number => (readWord (trim number.reverse)).bind ofMinutes?
  | _ => (readWord cs).map ofSecs

/-- The shortest setting for the whole milliseconds of a span. -/
def settingText (d : Duration) : String :=
  let ms := d.millis
  if ms % 60000 = 0 ∧ 0 < ms then toString (ms / 60000) ++ "m"
  else if ms % 1000 = 0 ∧ 0 < ms then toString (ms / 1000) ++ "s"
  else toString ms ++ "ms"

/-! ## Reports -/

/-- The decimal places of `rest / 10 ^ places`, without zeros at the end and with the point in front;
nothing when there are none. -/
def fractionText (rest places : Nat) : String :=
  if rest = 0 then ""
  else
    let digits := Nat.toDigits 10 rest
    let padded := List.replicate (places - digits.length) '0' ++ digits
    String.ofList ('.' :: (padded.reverse.dropWhile (· == '0')).reverse)

/-- `d` in a unit of `10 ^ places` nanoseconds. -/
def inUnit (d : Duration) (places : Nat) (unit : String) : String :=
  let size := Nat.pow 10 places
  toString (d.nanos / size) ++ fractionText (d.nanos % size) places ++ unit

/-- A span in full, in the largest unit in which it is at least one. -/
def reportText (d : Duration) : String :=
  if 1000000000 ≤ d.nanos then d.inUnit 9 "s"
  else if 1000000 ≤ d.nanos then d.inUnit 6 "ms"
  else if 1000 ≤ d.nanos then d.inUnit 3 "µs"
  else d.inUnit 0 "ns"

/-! ## Written and read -/

example : readSetting " 5 ms " = some (ofMillis 5) := by decide +kernel
example : readSetting "90" = some (ofSecs 90) := by decide +kernel
example : readSetting "2m" = some (ofSecs 120) := by decide +kernel
example : readSetting "5 m s" = none := by decide +kernel
example : readSetting "307445734561825861m" = none := by decide +kernel
example : settingText (ofSecs 90) = "90s" := by decide +kernel
example : settingText zero = "0ms" := by decide +kernel
example : reportText ⟨1500000⟩ = "1.5ms" := by decide +kernel
example : reportText ⟨18446744073709551615⟩ = "18446744073.709551615s" := by decide +kernel
example : reportText zero = "0ns" := by decide +kernel

end ConnPool.Duration
