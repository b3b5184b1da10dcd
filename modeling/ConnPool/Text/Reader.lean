/-
  Readers: a text is read from the left, and what is read is separated from what remains.

  A `Reader α` takes the characters that remain and either fails, or gives a value of `α` with the
  characters behind it.  A reader that fails has read nothing, so of two alternatives the second
  starts where the first started.  The two loops, `many` and `sepBy`, read items for as long as they
  can; they end because each turn has to shorten what remains, and an item that takes nothing ends
  the loop.
-/

namespace ConnPool.Text

/-- Reads a value from the left of the remaining characters. -/
abbrev Reader := StateT (List Char) Option

namespace Reader

/-- The next character, if it is in the class. -/
def satisfy (p : Char → Bool) : Reader Char
  | c :: rest => if p c then some (c, rest) else none
  | [] => none

/-- Exactly the character `c`. -/
def char (c : Char) : Reader Unit
  | d :: rest => if d = c then some ((), rest) else none
  | [] => none

/-- Exactly the characters of `word`. -/
def literal : List Char → Reader Unit
  | [], cs => some ((), cs)
  | c :: word, cs => do
    let (_, rest) ← char c cs
    literal word rest

/-- The longest run of characters in the class; it may be empty. -/
def run (p : Char → Bool) : Reader (List Char) :=
  fun cs => some (cs.takeWhile p, cs.dropWhile p)

/-- The longest run of characters in the class, at least one. -/
def run1 (p : Char → Bool) : Reader (List Char) := do
  let cs ← run p
  if cs.isEmpty then failure else pure cs

/-- Succeeds where nothing remains. -/
def atEnd : Reader Unit
  | [] => some ((), [])
  | _ => none

/-- What `item` reads, or nothing. -/
def opt (item : Reader α) : Reader (Option α) :=
  (some <$> item) <|> pure none

/-- Items for as long as one can be read. -/
def many (item : Reader α) (cs : List Char) : Option (List α × List Char) :=
  match item cs with
  | none => some ([], cs)
  | some (a, rest) =>
    if rest.length < cs.length then
      (many item rest).map fun (as, rest') => (a :: as, rest')
    else some ([], cs)
termination_by cs.length

/-- Items with a separator between each two; there may be none. -/
def sepBy (item : Reader α) (separator : Reader Unit) : Reader (List α) :=
  (do
    let first ← item
    let others ← many (do separator; item)
    pure (first :: others)) <|> pure []

/-- The value of a whole text: nothing may remain. -/
def readAll (reader : Reader α) (cs : List Char) : Option α :=
  match reader cs with
  | some (a, []) => some a
  | _ => none

/-! ## Laws -/

section Laws

variable {r s : Reader α} {f : α → Reader β} {p : Char → Bool} {a : α} {c d : Char}
variable {cs rest : List Char}

theorem bind_of_some (h : r cs = some (a, rest)) : (r >>= f) cs = f a rest := by
  show (r cs >>= fun x => f x.1 x.2) = f a rest
  rw [h]
  rfl

theorem bind_of_none (h : r cs = none) : (r >>= f) cs = none := by
  show (r cs >>= fun x => f x.1 x.2) = none
  rw [h]
  rfl

theorem orElse_of_some {x : α × List Char} (h : r cs = some x) : (r <|> s) cs = some x := by
  show (r cs <|> s cs) = some x
  rw [h]
  rfl

/-- The second alternative starts where the first one started. -/
theorem orElse_of_none (h : r cs = none) : (r <|> s) cs = s cs := by
  show (r cs <|> s cs) = s cs
  rw [h]
  rfl

theorem satisfy_of_true (h : p c = true) : satisfy p (c :: rest) = some (c, rest) :=
  if_pos h

theorem satisfy_of_false (h : p c = false) : satisfy p (c :: rest) = none :=
  if_neg (by rw [h]; exact Bool.false_ne_true)

theorem char_self : char c (c :: rest) = some ((), rest) :=
  if_pos rfl

theorem char_of_ne (h : d ≠ c) : char c (d :: rest) = none :=
  if_neg h

/-- A run ends before the first character that is not in its class. -/
theorem run_of_stop (hcs : ∀ x ∈ cs, p x = true) (hd : p d = false) :
    run p (cs ++ d :: rest) = some (cs, d :: rest) := by
  have htake : (cs ++ d :: rest).takeWhile p = cs := by
    rw [List.takeWhile_append_of_pos hcs, List.takeWhile_cons, hd]
    exact List.append_nil cs
  have hdrop : (cs ++ d :: rest).dropWhile p = d :: rest := by
    rw [List.dropWhile_append_of_pos hcs, List.dropWhile_cons, hd]
    rfl
  rw [run, htake, hdrop]

theorem run1_of_stop (hcs : ∀ x ∈ cs, p x = true) (hd : p d = false) (hne : cs ≠ []) :
    run1 p (cs ++ d :: rest) = some (cs, d :: rest) := by
  rw [run1, bind_of_some (run_of_stop hcs hd)]
  cases cs with
  | nil => exact absurd rfl hne
  | cons c cs => rfl

theorem run1_of_false (h : p c = false) : run1 p (c :: rest) = none := by
  have hnone : run p (c :: rest) = some ([], c :: rest) := run_of_stop (List.forall_mem_nil _) h
  rw [run1, bind_of_some hnone]
  rfl

theorem opt_of_none (h : r cs = none) : opt r cs = some (none, cs) := by
  refine orElse_of_none ?_
  show (r cs >>= fun x => some (some x.1, x.2)) = none
  rw [h]
  rfl

theorem many_of_some {as : List α} {rest' : List Char} (h : r cs = some (a, rest))
    (hlt : rest.length < cs.length) (hrest : many r rest = some (as, rest')) :
    many r cs = some (a :: as, rest') := by
  rw [many, h]
  simp only [if_pos hlt, hrest]
  rfl

theorem many_of_none (h : r cs = none) : many r cs = some ([], cs) := by
  rw [many, h]

end Laws

end Reader

end ConnPool.Text
