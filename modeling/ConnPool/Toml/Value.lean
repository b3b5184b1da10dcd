/-
  The values of a TOML document.

  A document is a table: named values in the order in which the document gives them.  A table in
  braces and one that headers and dotted keys have made are the same value.  A date-time is kept in
  its canonical text, which is all that is ever asked of it.
-/
import ConnPool.Binary64

namespace ConnPool.Toml

/-- A floating-point number with its sign, or no number. -/
inductive FloatValue
  | nan
  | number (negative : Bool) (magnitude : Binary64)
deriving DecidableEq, Repr

/-- A floating-point number without an exponent and with a point, as far as it is finite. -/
def FloatValue.text : FloatValue → String
  | .nan => "NaN"
  | .number negative magnitude => (if negative then "-" else "") ++ magnitude.positionalText

inductive Value
  | string (s : String)
  | integer (i : Int)
  | float (f : FloatValue)
  | boolean (b : Bool)
  | dateTime (text : String)
  | array (elements : List Value)
  | table (entries : List (String × Value))
deriving Repr

/-- Named values in the order of the document. -/
abbrev Entries := List (String × Value)

end ConnPool.Toml
