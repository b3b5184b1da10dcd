/-
  Files and folders, and the paths that lead to them.

  A place is given by the names that lead to it from the root.  A path is followed name by name
  (`walk`): an empty name and `.` stay, `..` goes up, though not above the root, and any other name has
  to be there.  Only a folder can be passed through.  A path that begins with a slash starts at the root,
  any other in the working folder.  What can be wrong with a path is reported for the first name at which
  it shows, and a path that is too long as a whole before that.
-/
import ConnPool.Config.Error

namespace ConnPool

/-- A file, or a folder with what is in it. -/
inductive FileTree
  | file (content : ByteArray)
  | folder (entries : List (String × FileTree))

/-- Files and folders from the root, and the folder in which paths start. -/
structure FileSystem where
  root : FileTree
  /-- The names that lead to the working folder. -/
  working : List String

namespace FileTree

/-- A folder with nothing in it. -/
def empty : FileTree := .folder []

/-- What stands at the end of a list of names. -/
def at? : FileTree → List String → Option FileTree
  | t, [] => some t
  | .file _, _ :: _ => none
  | .folder entries, name :: rest =>
    match entries.lookup name with
    | none => none
    | some t => t.at? rest

/-- The entries of a folder with another tree under a name. -/
def setEntry (entries : List (String × FileTree)) (name : String) (t : FileTree) :
    List (String × FileTree) :=
  if (entries.lookup name).isSome then
    entries.map fun e => if e.1 = name then (name, t) else e
  else entries ++ [(name, t)]

/-- The tree with something else at the end of a list of names; folders on the way are made. -/
def put (new : FileTree) : List String → FileTree → FileTree
  | [], _ => new
  | name :: rest, .folder entries =>
    .folder (setEntry entries name (put new rest ((entries.lookup name).getD empty)))
  | name :: rest, .file _ => .folder [(name, put new rest empty)]

/-! ## Paths -/

/-- The names of a path. -/
def names (path : String) : List String :=
  (path.toList.splitOn '/').map String.ofList

/-- The last name of a path. -/
def lastName (path : String) : String :=
  (names path).getLastD ""

/-- Whether a name leads from a folder to itself. -/
def stays (name : String) : Bool :=
  name = "" || name = "."

/-- The entry of the folder at a place, under a name of its own. -/
def enter (entries : List (String × FileTree)) (here : List String) (name : String) :
    Except FileError (List String) :=
  if 255 < name.utf8ByteSize then .error .nameTooLong
  else if (entries.lookup name).isSome then .ok (here ++ [name])
  else .error .notFound

/-- One name of a path, followed from a place. -/
def walk (t : FileTree) (here : List String) (name : String) : Except FileError (List String) :=
  match t.at? here with
  | none => .error .notFound
  | some (.file _) => .error .notADirectory
  | some (.folder entries) =>
    if stays name then .ok here
    else if name = ".." then .ok here.dropLast
    else enter entries here name

/-- The place of a file under a name in a folder, whether or not the file is there; the folder has to
be. -/
def placeFor (t : FileTree) (folder : List String) (name : String) :
    Except FileError (List String) :=
  match t.walk folder name with
  | .ok here =>
    match t.at? here with
    | some (.file _) => .ok here
    | _ => .error .isADirectory
  | .error .notFound => if (t.at? folder).isSome then .ok (folder ++ [name]) else .error .notFound
  | .error e => .error e

/-! ## Contents -/

/-- The text that is the content of a file. -/
def decodeText (content : ByteArray) : Except FileError String :=
  match String.fromUTF8? content with
  | some text => .ok text
  | none => .error .notText

/-- The text of the file at a place. -/
def textAt (t : FileTree) (here : List String) : Except FileError String :=
  match t.at? here with
  | none => .error .notFound
  | some (.folder _) => .error .isADirectory
  | some (.file content) => decodeText content

mutual

/-- All files with their paths; `here` is the path of the tree. -/
def filesAt (here : String) : FileTree → List (String × ByteArray)
  | .file content => [(here, content)]
  | .folder entries => entryFiles here entries

def entryFiles (here : String) : List (String × FileTree) → List (String × ByteArray)
  | [] => []
  | (name, t) :: rest =>
    filesAt (if here = "" then name else here ++ "/" ++ name) t ++ entryFiles here rest

end

/-- All files of a tree, with their paths. -/
def files (t : FileTree) : List (String × ByteArray) :=
  t.filesAt ""

end FileTree

namespace FileSystem

open FileTree

/-- Where a path starts, if it is one at all. -/
def startOf (s : FileSystem) (path : String) : Except FileError (List String) :=
  if path.toList.contains '\x00' then .error .nulInPath
  else if 4096 ≤ path.utf8ByteSize then .error .nameTooLong
  else if path = "" then .error .notFound
  else if path.startsWith "/" then .ok []
  else .ok s.working

/-- The place that a path leads to. -/
def locate (s : FileSystem) (path : String) : Except FileError (List String) := do
  (names path).foldlM s.root.walk (← s.startOf path)

/-- The place that a path leads to without its last name. -/
def locateFolder (s : FileSystem) (path : String) : Except FileError (List String) := do
  (names path).dropLast.foldlM s.root.walk (← s.startOf path)

/-- Whether a path leads to anything. -/
def contains (s : FileSystem) (path : String) : Bool :=
  match s.locate path with
  | .ok _ => true
  | .error _ => false

/-- The text of a file. -/
def readText (s : FileSystem) (path : String) : Except FileError String := do
  s.root.textAt (← s.locate path)

/-- The files with one at a path; a file that is there is replaced. -/
def writeText (s : FileSystem) (path text : String) : Except FileError FileSystem := do
  let folder ← s.locateFolder path
  let here ← s.root.placeFor folder (lastName path)
  return { s with root := put (.file text.toUTF8) here s.root }

/-- All files below the working folder, with their paths from there. -/
def files (s : FileSystem) : List (String × ByteArray) :=
  ((s.root.at? s.working).map FileTree.files).getD []

end FileSystem

end ConnPool
