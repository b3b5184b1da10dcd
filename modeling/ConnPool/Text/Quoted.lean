/-
  Text in quotes, so that a reader sees every character of it.

  `quoted s` stands between double quotes.  A double quote, a backslash, and the control characters
  with a letter of their own (tab, line feed, carriage return, null) are written with a backslash;
  every other hidden character is written as its number in hexadecimal, `\u{…}`; all else stands
  for itself.  A single quote needs no care between double quotes.

  The escape is a function of one character (`escapeQuoted`), so the quoted form of a text is the
  concatenation of the forms of its characters.
-/
import ConnPool.Text.Hidden

namespace ConnPool.Text

/-- The digits of a number in base sixteen, in lower case and without leading zeros. -/
def hexDigits (n : Nat) : List Char :=
  Nat.toDigits 16 n

/-- How one character is written between double quotes. -/
def escapeQuoted (c : Char) : List Char :=
  if c = '"' then ['\\', '"']
  else if c = '\\' then ['\\', '\\']
  else if c = '\n' then ['\\', 'n']
  else if c = '\r' then ['\\', 'r']
  else if c = '\t' then ['\\', 't']
  else if c.toNat = 0 then ['\\', '0']
  else if isHidden c then ['\\', 'u', '{'] ++ hexDigits c.toNat ++ ['}']
  else [c]

/-- A text between double quotes, with every character of it visible. -/
def quoted (s : String) : String :=
  String.ofList ('"' :: s.toList.flatMap escapeQuoted ++ ['"'])

/-- An optional text in quotes, with the word that tells a present text from an absent one. -/
def quotedOption : Option String → String
  | none => "None"
  | some s => "Some(" ++ quoted s ++ ")"

example : quoted "a\"b\\" = "\"a\\\"b\\\\\"" := by decide +kernel
example : quoted (String.ofList [Char.ofNat 7, Char.ofNat 0x301]) = "\"\\u\x7b7\x7d\\u\x7b301\x7d\"" := by
  decide +kernel

end ConnPool.Text
