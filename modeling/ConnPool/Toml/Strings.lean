/-
  The four kinds of TOML strings, read behind their opening quotes.

  A basic string stands between double quotes and knows escapes; a literal string stands between
  single quotes and knows none.  Both have a form with three quotes that may run over several lines.
  Each form is read by a machine that goes through the characters once: its mode says what the next
  character means.  In a form with three quotes one or two quotes are text, three close the string,
  and of four or five the last three do.

  Line ends are line feeds here; the document reader has turned the other form into this one.
-/
import ConnPool.Text.Reader

namespace ConnPool.Toml

open ConnPool.Text

/-- The apostrophe, which quotes literal strings. -/
def apostrophe : Char := Char.ofNat 39

/-- A character that may stand in a document: no control character but the tab. -/
def isGraphic (c : Char) : Bool :=
  c = '\t' || (32 ≤ c.toNat && c.toNat ≠ 127)

/-- The value of a hexadecimal digit, in either case. -/
def hexValue (c : Char) : Option Nat :=
  if c.isDigit then some (c.toNat - 48)
  else if 'a' ≤ c ∧ c ≤ 'f' then some (c.toNat - 87)
  else if 'A' ≤ c ∧ c ≤ 'F' then some (c.toNat - 55)
  else none

/-- The character with the given number; the numbers of surrogates and those above the last
character have none. -/
def charOfCode (n : Nat) : Option Char :=
  if n.isValidChar then some (Char.ofNat n) else none

/-- The character that a backslash and this letter stand for. -/
def shortEscape (c : Char) : Option Char :=
  if c = 'b' then some (Char.ofNat 8)
  else if c = 't' then some '\t'
  else if c = 'n' then some '\n'
  else if c = 'f' then some (Char.ofNat 12)
  else if c = 'r' then some '\r'
  else if c = '"' then some '"'
  else if c = '\\' then some '\\'
  else none

/-- The number of hexadecimal digits behind a backslash and this letter. -/
def codeLength (c : Char) : Option Nat :=
  if c = 'u' then some 4 else if c = 'U' then some 8 else none

/-- What the next character of a string means. -/
inductive Mode
  /-- Text. -/
  | plain
  /-- The letter behind a backslash. -/
  | escape
  /-- One of `left` more hexadecimal digits; those before it make `value`. -/
  | code (left value : Nat)
  /-- A blank between a backslash and the end of its line. -/
  | lineEnd
  /-- Blank space behind a line that ends with a backslash. -/
  | margin
  /-- The character behind a run of double quotes. -/
  | quotes (count : Nat)
deriving DecidableEq, Repr

/-- Puts characters in front of what a string reader reads. -/
def push (cs : List Char) : Option (List Char × List Char) → Option (List Char × List Char)
  | none => none
  | some (text, rest) => some (cs ++ text, rest)

/-- A basic string on one line, behind its opening quote. -/
def basicText : Mode → List Char → Option (List Char × List Char)
  | .plain, c :: rest =>
    if c = '"' then some ([], rest)
    else if c = '\\' then basicText .escape rest
    else if isGraphic c then push [c] (basicText .plain rest)
    else none
  | .escape, c :: rest =>
    match shortEscape c, codeLength c with
    | some d, _ => push [d] (basicText .plain rest)
    | none, some n => basicText (.code n 0) rest
    | none, none => none
  | .code left value, c :: rest =>
    match hexValue c with
    | none => none
    | some d =>
      if left = 1 then
        match charOfCode (16 * value + d) with
        | none => none
        | some ch => push [ch] (basicText .plain rest)
      else basicText (.code (left - 1) (16 * value + d)) rest
  | _, _ => none

/-- A basic string over several lines, behind its opening quotes. -/
def basicLines : Mode → List Char → Option (List Char × List Char)
  | .quotes n, [] => if 3 ≤ n then some (List.replicate (n - 3) '"', []) else none
  | _, [] => none
  | .escape, c :: rest =>
    match shortEscape c, codeLength c with
    | some d, _ => push [d] (basicLines .plain rest)
    | none, some n => basicLines (.code n 0) rest
    | none, none =>
      if c = '\n' then basicLines .margin rest
      else if c = ' ' ∨ c = '\t' then basicLines .lineEnd rest
      else none
  | .code left value, c :: rest =>
    match hexValue c with
    | none => none
    | some d =>
      if left = 1 then
        match charOfCode (16 * value + d) with
        | none => none
        | some ch => push [ch] (basicLines .plain rest)
      else basicLines (.code (left - 1) (16 * value + d)) rest
  | .lineEnd, c :: rest =>
    if c = '\n' then basicLines .margin rest
    else if c = ' ' ∨ c = '\t' then basicLines .lineEnd rest
    else none
  | .quotes n, c :: rest =>
    if c = '"' then
      -- the fifth quote: two are text and three end the string
      if n = 4 then some (['"', '"'], rest) else basicLines (.quotes (n + 1)) rest
    else if 3 ≤ n then some (List.replicate (n - 3) '"', c :: rest)
    else push (List.replicate n '"')
      (if c = '\\' then basicLines .escape rest
      else if isGraphic c ∨ c = '\n' then push [c] (basicLines .plain rest)
      else none)
  | mode, c :: rest =>
    if mode = .margin ∧ (c = '\n' ∨ c = ' ' ∨ c = '\t') then basicLines .margin rest
    else if c = '"' then basicLines (.quotes 1) rest
    else if c = '\\' then basicLines .escape rest
    else if isGraphic c ∨ c = '\n' then push [c] (basicLines .plain rest)
    else none

/-- A literal string on one line, behind its opening quote. -/
def literalText : List Char → Option (List Char × List Char)
  | [] => none
  | c :: rest =>
    if c = apostrophe then some ([], rest)
    else if isGraphic c then push [c] (literalText rest)
    else none

/-- A literal string over several lines, behind its opening quotes and `n` more quotes. -/
def literalLines : Nat → List Char → Option (List Char × List Char)
  | n, [] => if 3 ≤ n then some (List.replicate (n - 3) apostrophe, []) else none
  | n, c :: rest =>
    if c = apostrophe then
      -- the fifth apostrophe: two are text and three end the string
      if n = 4 then some ([apostrophe, apostrophe], rest) else literalLines (n + 1) rest
    else if 3 ≤ n then some (List.replicate (n - 3) apostrophe, c :: rest)
    else if isGraphic c ∨ c = '\n' then
      push (List.replicate n apostrophe ++ [c]) (literalLines 0 rest)
    else none

/-- The characters behind an opening of three quotes; a line end directly behind it is no text. -/
def skipLineEnd : List Char → List Char
  | '\n' :: rest => rest
  | cs => cs

/-- A string on one line, with its opening quote. -/
def lineString : Reader (List Char)
  | c :: rest =>
    if c = '"' then basicText .plain rest
    else if c = apostrophe then literalText rest
    else none
  | [] => none

/-- A string of any kind, with its opening quotes. -/
def string : Reader (List Char)
  | a :: b :: c :: rest =>
    if a = '"' ∧ b = '"' ∧ c = '"' then basicLines .plain (skipLineEnd rest)
    else if a = apostrophe ∧ b = apostrophe ∧ c = apostrophe then
      literalLines 0 (skipLineEnd rest)
    else lineString (a :: b :: c :: rest)
  | cs => lineString cs

example : string "\"a\\tb\\u00e9\" x".toList = some ("a\tbé".toList, " x".toList) := by decide +kernel
example : string "\"\"\"\na\\\n  b\"\"\"\"".toList = some ("ab\"".toList, []) := by decide +kernel
example : string "''''a'''''".toList = some ("'a''".toList, []) := by decide +kernel
example : string "\"\\ud800\"".toList = none := by decide +kernel

end ConnPool.Toml
