/-
  What the lines of a TOML document mean together.

  A header opens a table, and the settings behind it belong to that table; a dotted key or the path of
  a header makes the tables on its way.  A table can be opened once: by its own header, unless only
  the headers of its sub-tables have named it so far, and never after a dotted key has made it.  A
  dotted key extends tables made by dotted keys and passes through tables that headers have implied,
  but it cannot extend a table that has a header of its own.

  The open table is kept apart from the rest of the document and is put at the end of its parent when
  the next header closes it.  So a table that was implied first and opened later stands where it was
  opened, and this is the order in which the entries of a document are read.
-/
import ConnPool.Toml.Grammar

namespace ConnPool.Toml

/-- How a table came to be. -/
inductive Origin
  /-- By a header of its own. -/
  | header
  /-- By the header of a table inside it. -/
  | implied
  /-- By a dotted key. -/
  | dotted
deriving DecidableEq, Repr

/-- An entry of a document under construction. -/
inductive Node
  | value (v : Value)
  | table (origin : Origin) (entries : List (String × Node))
  | tables (elements : List (List (String × Node)))

/-- The entries of a table under construction, in order. -/
abbrev Nodes := List (String × Node)

namespace Nodes

/-- The entries with another node under a name that is there. -/
def replace (entries : Nodes) (name : String) (node : Node) : Nodes :=
  entries.map fun e => if e.1 = name then (name, node) else e

/-- The entries without a name. -/
def erase (entries : Nodes) (name : String) : Nodes :=
  entries.filter fun e => e.1 ≠ name

/-- Changes the table at the end of a path, and makes the tables on the way that are missing.
`dotted` says whether the path belongs to a dotted key. -/
def descend (dotted : Bool) (change : Origin → Nodes → Option Nodes) :
    List String → Origin → Nodes → Option Nodes
  | [], origin, entries => change origin entries
  | name :: path, _, entries =>
    match entries.lookup name with
    | none =>
      let origin := if dotted then .dotted else .implied
      (descend dotted change path origin []).map fun inner =>
        entries ++ [(name, .table origin inner)]
    | some (.value _) => none
    | some (.tables elements) =>
      match elements.getLast? with
      | none => none
      | some last =>
        (descend dotted change path .header last).map fun inner =>
          entries.replace name (.tables (elements.dropLast ++ [inner]))
    | some (.table origin inner) =>
      -- a dotted key cannot reach into a table that has its own header
      if dotted ∧ origin = .header then none
      else
        (descend dotted change path origin inner).map fun inner' =>
          entries.replace name (.table origin inner')

/-- Adds an entry with a new name. -/
def add (entries : Nodes) (name : String) (node : Node) : Option Nodes :=
  if (entries.lookup name).isSome then none else some (entries ++ [(name, node)])

end Nodes

mutual

def Node.close : Node → Value
  | .value v => v
  | .table _ entries => .table (Node.closeEntries entries)
  | .tables elements => .array (Node.closeTables elements)

def Node.closeEntries : List (String × Node) → List (String × Value)
  | [] => []
  | (k, n) :: rest => (k, n.close) :: Node.closeEntries rest

def Node.closeTables : List (List (String × Node)) → List Value
  | [] => []
  | entries :: rest => .table (Node.closeEntries entries) :: Node.closeTables rest

end

theorem Node.closeEntries_eq : ∀ entries : Nodes,
    Node.closeEntries entries = entries.map fun e => (e.1, e.2.close)
  | [] => rfl
  | (k, n) :: rest => by
    rw [Node.closeEntries, Node.closeEntries_eq rest, List.map_cons]

theorem Node.closeTables_eq : ∀ elements : List Nodes,
    Node.closeTables elements = elements.map fun es => .table (Node.closeEntries es)
  | [] => rfl
  | es :: rest => by
    rw [Node.closeTables, Node.closeTables_eq rest, List.map_cons]

/-- Which table the settings of the next lines belong to. -/
inductive Place
  /-- The document itself. -/
  | top
  /-- The table with this path. -/
  | table (parent : List String) (name : String)
  /-- A new element of the array of tables with this path. -/
  | element (parent : List String) (name : String)

/-- A document under construction. -/
structure Draft where
  /-- The closed tables. -/
  closed : Nodes
  /-- The entries of the open table. -/
  entries : Nodes
  place : Place

namespace Draft

def empty : Draft := ⟨[], [], .top⟩

/-- The document with the open table put at the end of its parent. -/
def closeTable (d : Draft) : Option Nodes :=
  match d.place with
  | .top => some d.entries
  | .table parent name =>
    d.closed.descend false (fun _ inner => inner.add name (.table .header d.entries)) parent .header
  | .element parent name =>
    d.closed.descend false
      (fun _ inner =>
        match inner.lookup name with
        | none => some (inner ++ [(name, .tables [d.entries])])
        | some (.tables elements) =>
          some (inner.replace name (.tables (elements ++ [d.entries])))
        | some _ => none)
      parent .header

/-- The entries that a table already has when its header opens it: those that headers of its
sub-tables have implied.  A table that was opened before, or that a dotted key has made, cannot be
opened. -/
def implied (inner : Nodes) (name : String) : Option Nodes :=
  match inner.lookup name with
  | none => some []
  | some (.table .implied entries) => some entries
  | some _ => none

/-- The table at the end of a path of headers, empty if there is none. -/
def tableAt : List String → Nodes → Nodes
  | [], entries => entries
  | name :: path, entries =>
    match entries.lookup name with
    | some (.table _ inner) => tableAt path inner
    | some (.tables elements) => tableAt path (elements.getLast?.getD [])
    | _ => []

/-- Opens the table with a header. -/
def openTable (closed : Nodes) (parent : List String) (name : String) : Option Draft := do
  let entries ← implied (tableAt parent closed) name
  let closed ← closed.descend false (fun _ inner => some (inner.erase name)) parent .header
  some ⟨closed, entries, .table parent name⟩

/-- Opens a new element of an array of tables. -/
def openElement (closed : Nodes) (parent : List String) (name : String) : Option Draft := do
  let closed ← closed.descend false
    (fun _ inner =>
      match inner.lookup name with
      | none => some inner
      | some (.tables _) => some inner
      | some _ => none)
    parent .header
  some ⟨closed, [], .element parent name⟩

/-- Adds a setting to the open table.  With a dotted key, the table at the end of the path has to be
one that dotted keys have made. -/
def addSetting (d : Draft) (path : List String) (v : Value) : Option Draft :=
  match path.reverse with
  | [] => none
  | name :: front => do
    let entries ← d.entries.descend true
      (fun origin inner =>
        if front ≠ [] ∧ origin ≠ .dotted then none else inner.add name (.value v))
      front.reverse .header
    some { d with entries := entries }

/-- One more line of the document. -/
def addLine (d : Draft) : Line → Option Draft
  | .blank => some d
  | .setting path v => d.addSetting path v
  | .header path =>
    match path.reverse with
    | [] => none
    | name :: front => do
      let closed ← d.closeTable
      openTable closed front.reverse name
  | .element path =>
    match path.reverse with
    | [] => none
    | name :: front => do
      let closed ← d.closeTable
      openElement closed front.reverse name

end Draft

/-- The entries of a document, if the text is one. -/
def parse (text : String) : Option Entries := do
  let ls ← lines text
  let draft ← ls.foldlM Draft.addLine Draft.empty
  let nodes ← draft.closeTable
  some (Node.closeEntries nodes)

end ConnPool.Toml
