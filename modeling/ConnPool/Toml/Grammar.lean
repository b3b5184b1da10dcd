/-
  The lines of a TOML document.

  A document is a list of lines: headers of tables, headers of elements of arrays of tables, settings,
  and lines with nothing but a comment.  What the lines mean together is not decided here; this module
  only says which texts are lines, and reads the keys and values in them.

  Arrays and inline tables nest at most `nestingLimit` deep, and a key has fewer parts than that bound
  plus one; `value` recurses on the nesting that is left.  Inside an inline table the keys have to be
  free of conflicts at once, which `inlineEntries` checks.
-/
import ConnPool.Toml.Numbers
import ConnPool.Toml.Strings

namespace ConnPool.Toml

open ConnPool.Text ConnPool.Text.Reader

/-- How deep arrays and inline tables may nest, and how many parts a key may have. -/
def nestingLimit : Nat := 79

/-! ## Blank space and comments -/

def isSpace (c : Char) : Bool :=
  c = ' ' || c = '\t'

/-- Blanks on a line. -/
def spaces : Reader Unit := do
  let _ ← run isSpace
  pure ()

def comment : Reader Unit := do
  char '#'
  let _ ← run isGraphic
  pure ()

/-- The end of a line, or of the document. -/
def lineEnd : Reader Unit :=
  char '\n' <|> atEnd

/-- What may stand behind a header or a setting on its line. -/
def lineRest : Reader Unit := do
  spaces
  let _ ← opt comment
  lineEnd

/-- Blanks, line ends and comments between the elements of an array. -/
def filler : Reader Unit := do
  let _ ← many (comment <|> (do let _ ← run1 fun c => isSpace c || c = '\n'; pure ()))
  pure ()

/-! ## Keys -/

/-- A character of a key that needs no quotes. -/
def isBare (c : Char) : Bool :=
  c.isAlphanum || c = '_' || c = '-'

/-- One part of a key. -/
def keyPart : Reader String := do
  let cs ← (run1 isBare <|> lineString)
  pure (String.ofList cs)

/-- A key: parts with dots between them and blanks around them. -/
def key : Reader (List String) := do
  let part : Reader String := do
    spaces
    let k ← keyPart
    spaces
    pure k
  let first ← part
  let others ← many (do char '.'; part)
  if others.length < nestingLimit then pure (first :: others) else failure

/-! ## Values -/

/-- An entry of an inline table under construction: a closed value, or a table that dotted keys may
still extend. -/
inductive InlineNode
  | value (v : Value)
  | dotted (entries : List (String × InlineNode))

mutual

def InlineNode.close : InlineNode → Value
  | .value v => v
  | .dotted entries => .table (InlineNode.closeEntries entries)

def InlineNode.closeEntries : List (String × InlineNode) → List (String × Value)
  | [] => []
  | (k, n) :: rest => (k, n.close) :: InlineNode.closeEntries rest

end

theorem InlineNode.closeEntries_eq : ∀ entries : List (String × InlineNode),
    InlineNode.closeEntries entries = entries.map fun e => (e.1, e.2.close)
  | [] => rfl
  | (k, n) :: rest => by
    rw [InlineNode.closeEntries, InlineNode.closeEntries_eq rest, List.map_cons]

/-- Puts a value under a dotted key.  Every part but the last names a table made by dotted keys; the
last part has to be new. -/
def InlineNode.place (v : Value) :
    List String → List (String × InlineNode) → Option (List (String × InlineNode))
  | [], _ => none
  | [k], entries => if (entries.lookup k).isSome then none else some (entries ++ [(k, .value v)])
  | k :: ks, entries =>
    match entries.lookup k with
    | none => (place v ks []).map fun inner => entries ++ [(k, .dotted inner)]
    | some (.value _) => none
    | some (.dotted inner) =>
      (place v ks inner).map fun inner' =>
        entries.map fun e => if e.1 = k then (k, .dotted inner') else e

/-- The entries of an inline table, if no two of its keys are in conflict. -/
def inlineEntries (settings : List (List String × Value)) : Option Entries :=
  (settings.foldlM (fun entries (path, v) => InlineNode.place v path entries) []).map
    InlineNode.closeEntries

/-- A value that holds no other values. -/
def scalar : Reader Value :=
  (do pure (.string (String.ofList (← string)))) <|> boolean <|> number

/-- An array of what `element` reads; a separator may follow the last element. -/
def array (element : Reader Value) : Reader Value := do
  char '['
  let elements ← sepBy (do filler; let v ← element; filler; pure v) (char ',')
  -- no separator stands in an array without elements
  if elements.isEmpty then pure () else let _ ← opt (char ',')
  filler
  char ']'
  pure (.array elements)

/-- A key with its value. -/
def setting (value : Reader Value) : Reader (List String × Value) := do
  let path ← key
  char '='
  spaces
  pure (path, ← value)

/-- An inline table with values that `value` reads. -/
def inlineTable (value : Reader Value) : Reader Value := do
  char '\x7b'
  let settings ← sepBy (do let s ← setting value; spaces; pure s) (char ',')
  spaces
  char '\x7d'
  match inlineEntries settings with
  | some entries => pure (.table entries)
  | none => failure

/-- A value in which arrays and inline tables nest at most so deep. -/
def value : (nesting : Nat) → Reader Value
  | 0 => scalar
  | nesting + 1 => scalar <|> array (value nesting) <|> inlineTable (value nesting)

/-! ## Lines -/

/-- A line of a document. -/
inductive Line
  /-- Nothing, or only a comment. -/
  | blank
  /-- The header of a table. -/
  | header (path : List String)
  /-- The header of one more element of an array of tables. -/
  | element (path : List String)
  /-- A key with its value. -/
  | setting (path : List String) (v : Value)

def line : Reader Line := do
  spaces
  (do char '\n'; pure .blank) <|>
  (do comment; lineEnd; pure .blank) <|>
  (do
    literal ['[', '[']
    let path ← key
    literal [']', ']']
    lineRest
    pure (.element path)) <|>
  (do
    char '['
    let path ← key
    char ']'
    lineRest
    pure (.header path)) <|>
  (do
    let (path, v) ← setting (value nestingLimit)
    lineRest
    pure (.setting path v))

/-- Line feeds for all line ends. -/
def plainLineEnds : List Char → List Char
  | '\r' :: '\n' :: rest => '\n' :: plainLineEnds rest
  | c :: rest => c :: plainLineEnds rest
  | [] => []

/-- The characters of a document without the mark that may stand at its start. -/
def withoutMark : List Char → List Char
  | c :: rest => if c.toNat = 0xFEFF then rest else c :: rest
  | [] => []

/-- The lines of a document. -/
def lines (text : String) : Option (List Line) :=
  (do
    let ls ← many line
    spaces
    pure ls : Reader (List Line)).readAll (plainLineEnds (withoutMark text.toList))

end ConnPool.Toml
