/-
  JSON text, on one line or indented.

  An object keeps its members in the order in which they are given.  `compact` writes no blanks at
  all; `pretty` gives every member and element a line of its own, two spaces deeper than the object
  or array around it, and writes an empty one as `[]` or `\x7b\x7d` on the spot.

  Between double quotes a quote, a backslash and the control characters are escaped, those with a
  letter of their own by the letter and the others by four hexadecimal digits; all else stands for
  itself.
-/

namespace ConnPool

inductive Json
  | null
  | bool (b : Bool)
  | num (n : Nat)
  | str (s : String)
  | arr (elements : List Json)
  | obj (members : List (String × Json))

namespace Json

/-- The text under an optional value, and `null` for none. -/
def ofOption (f : α → Json) : Option α → Json
  | none => .null
  | some a => f a

/-- How one character is written between double quotes. -/
def escape (c : Char) : List Char :=
  if c = '"' then ['\\', '"']
  else if c = '\\' then ['\\', '\\']
  else if c = '\n' then ['\\', 'n']
  else if c = '\r' then ['\\', 'r']
  else if c = '\t' then ['\\', 't']
  else if c.toNat = 8 then ['\\', 'b']
  else if c.toNat = 12 then ['\\', 'f']
  else if c.toNat < 32 then
    ['\\', 'u', '0', '0', Nat.digitChar (c.toNat / 16), Nat.digitChar (c.toNat % 16)]
  else [c]

/-- A text between double quotes. -/
def quote (s : String) : String :=
  String.ofList ('"' :: s.toList.flatMap escape ++ ['"'])

mutual

/-- One line, without blanks. -/
def compact : Json → String
  | .null => "null"
  | .bool b => if b then "true" else "false"
  | .num n => toString n
  | .str s => quote s
  | .arr elements => "[" ++ compactElements elements ++ "]"
  | .obj members => "\x7b" ++ compactMembers members ++ "\x7d"

def compactElements : List Json → String
  | [] => ""
  | [a] => a.compact
  | a :: rest => a.compact ++ "," ++ compactElements rest

def compactMembers : List (String × Json) → String
  | [] => ""
  | [(k, v)] => quote k ++ ":" ++ v.compact
  | (k, v) :: rest => quote k ++ ":" ++ v.compact ++ "," ++ compactMembers rest

end

/-- A new line with the margin of the given depth. -/
def newLine (depth : Nat) : String :=
  String.ofList ('\n' :: List.replicate (2 * depth) ' ')

mutual

/-- Indented text of a value that stands at the given depth. -/
def prettyAt (depth : Nat) : Json → String
  | .null => "null"
  | .bool b => if b then "true" else "false"
  | .num n => toString n
  | .str s => quote s
  | .arr [] => "[]"
  | .arr (a :: rest) =>
    "[" ++ prettyElements (depth + 1) (a :: rest) ++ newLine depth ++ "]"
  | .obj [] => "\x7b\x7d"
  | .obj (m :: rest) =>
    "\x7b" ++ prettyMembers (depth + 1) (m :: rest) ++ newLine depth ++ "\x7d"

def prettyElements (depth : Nat) : List Json → String
  | [] => ""
  | [a] => newLine depth ++ a.prettyAt depth
  | a :: rest => newLine depth ++ a.prettyAt depth ++ "," ++ prettyElements depth rest

def prettyMembers (depth : Nat) : List (String × Json) → String
  | [] => ""
  | [(k, v)] => newLine depth ++ quote k ++ ": " ++ v.prettyAt depth
  | (k, v) :: rest =>
    newLine depth ++ quote k ++ ": " ++ v.prettyAt depth ++ "," ++ prettyMembers depth rest

end

/-- Indented text, two spaces a level. -/
def pretty (j : Json) : String :=
  j.prettyAt 0

example : (obj [("a", .num 1), ("b", .arr [])]).pretty = "\x7b\n  \"a\": 1,\n  \"b\": []\n\x7d" := by
  decide +kernel
example : (obj [("a", .arr [.null, .bool true])]).compact = "\x7b\"a\":[null,true]\x7d" := by
  decide +kernel

end Json

end ConnPool
