/-
  Texts and keys in the form in which a TOML document is written.

  **Texts.**  A text is written in the first of these forms that shows it without escapes: a basic
  string, a literal string, a basic string with three quotes, a literal string with three quotes.  If
  none does, it is a basic string with escapes, over several lines when the text has several.  A form
  with three quotes starts with a line end exactly when the text has one, so that the text keeps its
  own first line end.  A tab needs no other form, but every basic form writes it as an escape.

  **Keys.**  A key is written bare if it can be, or else in the first form on one line that shows it
  without escapes, or else as a basic string with escapes.
-/
import ConnPool.Toml.Strings

namespace ConnPool.Toml

/-- The length of the longest run of `c`, given the length of the run before the text. -/
def longestRun (c : Char) : (before : Nat) → List Char → Nat
  | before, [] => before
  | before, d :: rest =>
    if d = c then longestRun c (before + 1) rest else max before (longestRun c 0 rest)

/-- A control character that has to be escaped in a text: any but the tab and the line feed. -/
def needsCode (c : Char) : Bool :=
  (c.toNat < 32 && c ≠ '\t' && c ≠ '\n') || c.toNat = 127

/-- A hexadecimal digit in upper case. -/
def upperHexDigit (n : Nat) : Char :=
  if n < 10 then Char.ofNat (48 + n) else Char.ofNat (55 + n)

/-- How a basic string writes a character, quotes and line ends included. -/
def basicEscape (c : Char) : List Char :=
  if c.toNat = 8 then ['\\', 'b']
  else if c = '\t' then ['\\', 't']
  else if c = '\n' then ['\\', 'n']
  else if c.toNat = 12 then ['\\', 'f']
  else if c = '\r' then ['\\', 'r']
  else if c = '"' then ['\\', '"']
  else if c = '\\' then ['\\', '\\']
  else if c.toNat < 32 ∨ c.toNat = 127 then
    ['\\', 'u', '0', '0', upperHexDigit (c.toNat / 16), upperHexDigit (c.toNat % 16)]
  else [c]

/-- The characters of a basic string over several lines: line ends stand for themselves, and so do two
quotes in a row, but not a third. -/
def basicLinesEscape : (quotes : Nat) → List Char → List Char
  | _, [] => []
  | quotes, c :: rest =>
    if c = '"' then
      if quotes = 2 then '\\' :: '"' :: basicLinesEscape 0 rest
      else '"' :: basicLinesEscape (quotes + 1) rest
    else (if c = '\n' then ['\n'] else basicEscape c) ++ basicLinesEscape 0 rest

/-- The forms of a written text. -/
inductive Form
  | basic
  | literal
  | basicLines
  | literalLines
deriving DecidableEq, Repr

/-- The form in which a text is written. -/
def formOf (cs : List Char) : Form :=
  let backslash := cs.contains '\\'
  let code := cs.any needsCode
  let lineEnd := cs.contains '\n'
  let doubles := longestRun '"' 0 cs
  let singles := longestRun apostrophe 0 cs
  if !backslash && !code && !lineEnd && doubles == 0 then .basic
  else if !code && !lineEnd && singles == 0 then .literal
  else if !backslash && !code && doubles ≤ 2 then .basicLines
  else if !code && singles ≤ 2 then .literalLines
  else if lineEnd then .basicLines
  else .basic

/-- What stands behind the opening of three quotes before the text. -/
def openingLineEnd (cs : List Char) : List Char :=
  if cs.contains '\n' then ['\n'] else []

/-- A text in a given form. -/
def writeAs (cs : List Char) : Form → List Char
  | .basic => '"' :: cs.flatMap basicEscape ++ ['"']
  | .literal => apostrophe :: cs ++ [apostrophe]
  | .basicLines =>
    List.replicate 3 '"' ++ openingLineEnd cs ++ basicLinesEscape 0 cs ++ List.replicate 3 '"'
  | .literalLines =>
    List.replicate 3 apostrophe ++ openingLineEnd cs ++ cs ++ List.replicate 3 apostrophe

/-- A text as a value of a document. -/
def writeText (s : String) : List Char :=
  writeAs s.toList (formOf s.toList)

/-- A key of a document. -/
def writeKey (s : String) : List Char :=
  let cs := s.toList
  let control := cs.any fun c => (c.toNat < 32 && c ≠ '\t') || c.toNat = 127
  if !cs.isEmpty && cs.all (fun c => c.isAlphanum || c = '_' || c = '-') then cs
  else if !cs.contains '"' && !cs.contains '\\' && !control then writeAs cs .basic
  else if !cs.contains apostrophe && !control then writeAs cs .literal
  else writeAs cs .basic

/-! ## Settings and tables -/

/-- One setting on its line. -/
def writeSetting (key : String) (value : List Char) : List Char :=
  writeKey key ++ [' ', '=', ' '] ++ value ++ ['\n']

/-- A table with its header; `path` is the header's text. -/
def writeTable (path : String) (settings : List (String × List Char)) : List Char :=
  '[' :: path.toList ++ [']', '\n'] ++ settings.flatMap fun s => writeSetting s.1 s.2

/-- Tables with an empty line between each two. -/
def writeTables : List (List Char) → List Char
  | [] => []
  | [t] => t
  | t :: rest => t ++ '\n' :: writeTables rest

example : writeText "it's \"q\"" = "\"\"\"it's \"q\"\"\"\"".toList := by decide +kernel
example : writeText "a\\b" = "'a\\b'".toList := by decide +kernel
example : writeText "a\tb" = "\"a\\tb\"".toList := by decide +kernel
example : writeKey "a b" = "\"a b\"".toList := by decide +kernel

end ConnPool.Toml
