/-
  Transaction isolation levels.

  A level has one written form, its label in lower case with hyphens, used in settings and in every
  output.  `ofLabel?` reads a label back, and no other text is a label.
-/

namespace ConnPool

/-- How far a transaction is kept apart from those that run beside it. -/
inductive Isolation
  | none
  | readUncommitted
  | readCommitted
  | repeatableRead
  | serializable
deriving DecidableEq, Repr

namespace Isolation

/-- Every level, from the weakest to the strongest. -/
def all : List Isolation :=
  [.none, .readUncommitted, .readCommitted, .repeatableRead, .serializable]

def label : Isolation → String
  | .none => "none"
  | .readUncommitted => "read-uncommitted"
  | .readCommitted => "read-committed"
  | .repeatableRead => "repeatable-read"
  | .serializable => "serializable"

def ofLabel? (s : String) : Option Isolation :=
  all.find? fun level => level.label = s

theorem ofLabel?_label (level : Isolation) : ofLabel? level.label = some level := by
  cases level <;> decide

end Isolation

end ConnPool
