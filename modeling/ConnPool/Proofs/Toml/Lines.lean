/-
  Written lines are read back.

  A document is written line by line, and the reader of lines goes through its alternatives until one of
  them reads the line.  So a line is read back if the alternatives before its own fail at its first
  characters, and if each part of it is read back and leaves what stands behind it.

  What a value is written as (`Writes`) is known only by how it is read: a text in quotes, a truth value
  or a number.  With a key in front of it this makes a line (`line_writeSetting`).  Pieces of a document
  that consist of whole lines (`ReadsAs`) can be put one behind the other, so with a header in front the
  settings make a table (`readsAs_writeTable`), and the tables make the document (`lines_of_readsAs`).
-/
import ConnPool.Proofs.Toml.Counts
import ConnPool.Proofs.Toml.Quotation

namespace ConnPool.Toml

open ConnPool.Text ConnPool.Text.Reader

/-! ## Blanks and keys -/

theorem spaces_of_stop {d : Char} (hd : isSpace d = false) (rest : List Char) :
    spaces (d :: rest) = some ((), d :: rest) := by
  have hrun : run isSpace (d :: rest) = some ([], d :: rest) :=
    run_of_stop (List.forall_mem_nil _) hd
  rw [spaces, bind_of_some hrun]
  rfl

/-- One blank is skipped. -/
theorem spaces_blank {d : Char} (hd : isSpace d = false) (rest : List Char) :
    spaces (' ' :: d :: rest) = some ((), d :: rest) := by
  have hrun : run isSpace ([' '] ++ d :: rest) = some ([' '], d :: rest) :=
    run_of_stop (List.forall_mem_singleton.2 rfl) hd
  rw [List.singleton_append] at hrun
  rw [spaces, bind_of_some hrun]
  rfl

theorem isSpace_of_isBare {c : Char} (h : isBare c = true) : isSpace c = false := by
  rw [Bool.eq_false_iff]
  intro hs
  simp only [isSpace, Bool.or_eq_true, decide_eq_true_eq] at hs
  rcases hs with rfl | rfl
  · exact absurd h (by decide)
  · exact absurd h (by decide)

/-- How a key is written: as it is, or in one of the two forms on one line, which suits it. -/
theorem writeKey_cases (s : String) :
    (writeKey s = s.toList ∧ s.toList ≠ [] ∧ ∀ c ∈ s.toList, isBare c = true) ∨
    writeKey s = writeAs s.toList .basic ∨
    (writeKey s = writeAs s.toList .literal ∧ Shows s.toList) := by
  unfold writeKey
  dsimp only
  split
  case isTrue h =>
    simp only [Bool.and_eq_true, Bool.not_eq_true', List.isEmpty_eq_false_iff, List.all_eq_true] at h
    exact Or.inl ⟨rfl, h.1, h.2⟩
  split
  · exact Or.inr (Or.inl rfl)
  split
  case isTrue h =>
    simp only [Bool.and_eq_true, Bool.not_eq_true', List.any_eq_false, Bool.or_eq_true,
      decide_eq_true_eq, not_or, not_and] at h
    refine Or.inr (Or.inr ⟨rfl, fun c hc => ⟨?_, ?_⟩⟩)
    · rintro rfl
      simp [hc] at h
    · obtain ⟨hlow, hhigh⟩ := h.2 c hc
      by_cases htab : c = '\t'
      · rw [htab]
        rfl
      · have hlow' : ¬ c.toNat < 32 := fun hlt => hlow hlt htab
        exact isGraphic_of_code (by omega) hhigh
  · exact Or.inr (Or.inl rfl)

/-- The first character of a key is bare or a quote. -/
theorem writeKey_head (s : String) : ∃ c cs, writeKey s = c :: cs ∧
    (isBare c = true ∨ c = '"' ∨ c = apostrophe) := by
  rcases writeKey_cases s with ⟨e, hne, hbare⟩ | e | ⟨e, -⟩
  · obtain ⟨c, cs, hcs⟩ := List.exists_cons_of_ne_nil hne
    exact ⟨c, cs, e.trans hcs, Or.inl (hbare c (hcs ▸ List.mem_cons_self))⟩
  · exact ⟨'"', _, e, Or.inr (Or.inl rfl)⟩
  · exact ⟨apostrophe, _, e, Or.inr (Or.inr rfl)⟩

/-- **A written key is read back.** -/
theorem keyPart_writeKey (s : String) {d : Char} (hd : isBare d = false) (rest : List Char) :
    keyPart (writeKey s ++ d :: rest) = some (s, d :: rest) := by
  have hquoted : ∀ {c : Char} {cs : List Char}, writeKey s = c :: cs → isBare c = false →
      lineString (writeKey s ++ d :: rest) = some (s.toList, d :: rest) →
      keyPart (writeKey s ++ d :: rest) = some (s, d :: rest) := by
    intro c cs e hc hread
    have hbare : run1 isBare (writeKey s ++ d :: rest) = none := by
      rw [e]
      exact run1_of_false hc
    rw [keyPart, bind_of_some ((orElse_of_none hbare).trans hread), String.ofList_toList]
    rfl
  rcases writeKey_cases s with ⟨e, hne, hbare⟩ | e | ⟨e, hshows⟩
  · have hread : run1 isBare (s.toList ++ d :: rest) = some (s.toList, d :: rest) :=
      run1_of_stop hbare hd hne
    rw [e, keyPart, bind_of_some (orElse_of_some hread), String.ofList_toList]
    rfl
  · refine hquoted e (by decide) ?_
    rw [e]
    exact lineString_basic _ _
  · refine hquoted e (by decide) ?_
    rw [e]
    exact lineString_literal hshows _

theorem plain_writeKey (s : String) : Plain (writeKey s) := by
  rcases writeKey_cases s with ⟨e, -, hbare⟩ | e | ⟨e, hshows⟩
  · intro h
    rw [e] at h
    exact absurd (hbare _ h) (by decide)
  · rw [e]
    exact plain_writeAs (show Form.basic.Suits s.toList from trivial)
  · rw [e]
    exact plain_writeAs (show Form.literal.Suits s.toList from hshows)

/-- One part of a key, with the blanks around it. -/
def paddedPart : Reader String := do
  spaces
  let k ← keyPart
  spaces
  pure k

theorem key_eq : key = (do
    let first ← paddedPart
    let others ← many (do char '.'; paddedPart)
    if others.length < nestingLimit then pure (first :: others) else failure) := rfl

/-- A written key behind which the next character stands, or a blank and then the next character. -/
theorem paddedPart_writeKey (s : String) {d : Char} {tail rest : List Char}
    (htail : tail = d :: rest ∨ tail = ' ' :: d :: rest) (hbare : isBare d = false)
    (hspace : isSpace d = false) : paddedPart (writeKey s ++ tail) = some (s, d :: rest) := by
  have hbefore : spaces (writeKey s ++ tail) = some ((), writeKey s ++ tail) := by
    obtain ⟨c, cs, e, hc⟩ := writeKey_head s
    rw [e]
    refine spaces_of_stop ?_ _
    rcases hc with hc | rfl | rfl
    · exact isSpace_of_isBare hc
    · rfl
    · rfl
  rw [paddedPart, bind_of_some hbefore]
  rcases htail with rfl | rfl
  · rw [bind_of_some (keyPart_writeKey s hbare rest), bind_of_some (spaces_of_stop hspace rest)]
    rfl
  · rw [bind_of_some (keyPart_writeKey s (d := ' ') rfl _), bind_of_some (spaces_blank hspace rest)]
    rfl

/-- A key of one part. -/
theorem key_writeKey (s : String) {d : Char} {tail rest : List Char}
    (htail : tail = d :: rest ∨ tail = ' ' :: d :: rest) (hbare : isBare d = false)
    (hspace : isSpace d = false) (hdot : d ≠ '.') :
    key (writeKey s ++ tail) = some ([s], d :: rest) := by
  have hno : (do char '.'; paddedPart : Reader String) (d :: rest) = none :=
    bind_of_none (char_of_ne hdot)
  rw [key_eq, bind_of_some (paddedPart_writeKey s htail hbare hspace), bind_of_some (many_of_none hno)]
  rfl

/-- A key of two parts, with nothing behind it but the next character. -/
theorem key_writeKey_dot (s t : String) {d : Char} (rest : List Char) (hbare : isBare d = false)
    (hspace : isSpace d = false) (hdot : d ≠ '.') :
    key (writeKey s ++ '.' :: (writeKey t ++ d :: rest)) = some ([s, t], d :: rest) := by
  have hno : (do char '.'; paddedPart : Reader String) (d :: rest) = none :=
    bind_of_none (char_of_ne hdot)
  have hsecond : (do char '.'; paddedPart : Reader String) ('.' :: (writeKey t ++ d :: rest)) =
      some (t, d :: rest) := by
    rw [bind_of_some char_self]
    exact paddedPart_writeKey t (Or.inl rfl) hbare hspace
  have hshorter : (d :: rest).length < ('.' :: (writeKey t ++ d :: rest)).length := by
    simp only [List.length_cons, List.length_append]
    omega
  rw [key_eq, bind_of_some (paddedPart_writeKey s (Or.inl rfl) (by decide) (by decide)),
    bind_of_some (many_of_some hsecond hshorter (many_of_none hno))]
  rfl

/-! ## Values -/

/-- What a value is written as: it is read back in front of a line end. -/
structure Writes (cs : List Char) (v : Value) : Prop where
  head : ∃ c tail, cs = c :: tail ∧ isSpace c = false
  reads : ∀ rest, scalar (cs ++ '\n' :: rest) = some (v, '\n' :: rest)
  plain : Plain cs

theorem string_of_head {c : Char} (hq : c ≠ '"') (ha : c ≠ apostrophe) (cs : List Char) :
    string (c :: cs) = none := by
  have hline : ∀ tail, lineString (c :: tail) = none := by
    intro tail
    rw [lineString, if_neg hq, if_neg ha]
  rcases cs with _ | ⟨d, _ | ⟨e, cs⟩⟩
  · exact hline []
  · exact hline [d]
  · rw [string, if_neg fun h => hq h.1, if_neg fun h => ha h.1]
    exact hline _

theorem writeText_head (s : String) : ∃ c tail, writeText s = c :: tail ∧ isSpace c = false := by
  unfold writeText
  cases formOf s.toList with
  | basic => exact ⟨'"', _, rfl, rfl⟩
  | literal => exact ⟨apostrophe, _, rfl, rfl⟩
  | basicLines => exact ⟨'"', _, rfl, rfl⟩
  | literalLines => exact ⟨apostrophe, _, rfl, rfl⟩

theorem writes_text (s : String) : Writes (writeText s) (.string s) where
  head := writeText_head s
  reads rest := by
    have hread := string_writeText s (d := '\n') (by decide) (by decide) rest
    have hstring : (do pure (.string (String.ofList (← string))) : Reader Value)
        (writeText s ++ '\n' :: rest) = some (.string s, '\n' :: rest) := by
      rw [bind_of_some hread, String.ofList_toList]
      rfl
    exact orElse_of_some hstring
  plain := plain_writeText s

/-- A reader that fails at the first character reads no text in quotes. -/
theorem scalar_of_head {c : Char} (hq : c ≠ '"') (ha : c ≠ apostrophe) (cs : List Char) :
    scalar (c :: cs) = (boolean <|> number) (c :: cs) :=
  orElse_of_none (bind_of_none (string_of_head hq ha cs))

theorem writes_true : Writes ['t', 'r', 'u', 'e'] (.boolean true) where
  head := ⟨'t', _, rfl, rfl⟩
  reads rest := by
    show scalar ('t' :: 'r' :: 'u' :: 'e' :: '\n' :: rest) = _
    rw [scalar_of_head (by decide) (by decide)]
    rfl
  plain := by simp [Plain]

theorem writes_false : Writes ['f', 'a', 'l', 's', 'e'] (.boolean false) where
  head := ⟨'f', _, rfl, rfl⟩
  reads rest := by
    show scalar ('f' :: 'a' :: 'l' :: 's' :: 'e' :: '\n' :: rest) = _
    rw [scalar_of_head (by decide) (by decide)]
    rfl
  plain := by simp [Plain]

theorem writes_count {n : Nat} (hn : n < signedLimit) :
    Writes (Nat.toDigits 10 n) (.integer n) := by
  obtain ⟨c, cs, hcs⟩ := List.exists_cons_of_ne_nil (Nat.toDigits_ne_nil (n := n) (b := 10))
  have hdigits := allDigits_toDigits n
  have hc : c.isDigit = true := hdigits c (hcs ▸ List.mem_cons_self)
  have hne : ∀ {d : Char}, d.isDigit = false → c ≠ d := by
    rintro d hd rfl
    rw [hc] at hd
    exact absurd hd (by decide)
  refine ⟨⟨c, cs, hcs, ?_⟩, fun rest => ?_, fun h => ?_⟩
  · exact isSpace_of_isBare (by simp [isBare, Char.isAlphanum, hc])
  · have hno : boolean (Nat.toDigits 10 n ++ '\n' :: rest) = none := by
      have hword : ∀ (x : Char) (word : List Char), x.isDigit = false →
          literal (x :: word) (Nat.toDigits 10 n ++ '\n' :: rest) = none := by
        intro x word hx
        rw [hcs, List.cons_append, literal, char_of_ne (hne hx)]
        rfl
      rw [boolean, orElse_of_none (bind_of_none (hword 't' _ (by decide))),
        bind_of_none (hword 'f' _ (by decide))]
    have hhead : scalar (Nat.toDigits 10 n ++ '\n' :: rest) =
        (boolean <|> number) (Nat.toDigits 10 n ++ '\n' :: rest) := by
      rw [hcs, List.cons_append]
      exact scalar_of_head (hne (by decide)) (hne (by decide)) _
    rw [hhead, orElse_of_none hno]
    exact number_toDigits hn rest
  · exact absurd (hdigits _ h) (by decide)

theorem value_of_scalar {nesting : Nat} {cs : List Char} {x : Value × List Char}
    (h : scalar cs = some x) : value nesting cs = some x := by
  cases nesting with
  | zero => exact h
  | succ nesting => exact orElse_of_some h

/-! ## Lines -/

theorem comment_of_ne {c : Char} (h : c ≠ '#') (rest : List Char) : comment (c :: rest) = none :=
  bind_of_none (char_of_ne h)

/-- The rest of a line with nothing on it. -/
theorem lineRest_end (rest : List Char) : lineRest ('\n' :: rest) = some ((), rest) := by
  rw [lineRest, bind_of_some (spaces_of_stop (by decide) rest),
    bind_of_some (opt_of_none (comment_of_ne (by decide) rest))]
  exact orElse_of_some char_self

theorem line_end (rest : List Char) : line ('\n' :: rest) = some (.blank, rest) := by
  rw [line, bind_of_some (spaces_of_stop (by decide) rest)]
  refine orElse_of_some ?_
  rw [bind_of_some char_self]
  rfl

/-- **A written setting is read back**: no other line begins with a key. -/
theorem line_writeSetting (k : String) {cs : List Char} {v : Value} (h : Writes cs v)
    (rest : List Char) :
    line (writeSetting k cs ++ rest) = some (.setting [k] v, rest) := by
  have htext : writeSetting k cs ++ rest = writeKey k ++ ' ' :: '=' :: ' ' :: (cs ++ '\n' :: rest) := by
    simp [writeSetting]
  obtain ⟨c, tail, hc, hhead⟩ := writeKey_head k
  have hne : ∀ {d : Char}, isBare d = false → d ≠ '"' → d ≠ apostrophe → c ≠ d := by
    rintro d hd hq ha rfl
    rcases hhead with hbare | rfl | rfl
    · rw [hbare] at hd
      exact absurd hd (by decide)
    · exact hq rfl
    · exact ha rfl
  have hspace : isSpace c = false := by
    rcases hhead with hbare | rfl | rfl
    · exact isSpace_of_isBare hbare
    · rfl
    · rfl
  have hopen : literal ['[', '['] (c :: (tail ++ ' ' :: '=' :: ' ' :: (cs ++ '\n' :: rest))) = none := by
    rw [literal, char_of_ne (hne (by decide) (by decide) (by decide))]
    rfl
  have hkey : key (writeKey k ++ ' ' :: '=' :: ' ' :: (cs ++ '\n' :: rest)) =
      some ([k], '=' :: ' ' :: (cs ++ '\n' :: rest)) :=
    key_writeKey k (Or.inr rfl) (by decide) (by decide) (by decide)
  have hbefore : spaces (' ' :: (cs ++ '\n' :: rest)) = some ((), cs ++ '\n' :: rest) := by
    obtain ⟨d, ds, hd, hdspace⟩ := h.head
    rw [hd]
    exact spaces_blank hdspace _
  have hvalue : value nestingLimit (cs ++ '\n' :: rest) = some (v, '\n' :: rest) :=
    value_of_scalar (h.reads rest)
  have hsetting : setting (value nestingLimit) (writeKey k ++ ' ' :: '=' :: ' ' :: (cs ++ '\n' :: rest)) =
      some (([k], v), '\n' :: rest) := by
    rw [setting, bind_of_some hkey, bind_of_some char_self, bind_of_some hbefore, bind_of_some hvalue]
    rfl
  rw [htext, line]
  rw [hc, List.cons_append] at hsetting ⊢
  rw [bind_of_some (spaces_of_stop hspace _),
    orElse_of_none (bind_of_none (char_of_ne (hne (by decide) (by decide) (by decide)))),
    orElse_of_none (bind_of_none (comment_of_ne (hne (by decide) (by decide) (by decide)) _)),
    orElse_of_none (bind_of_none hopen),
    orElse_of_none (bind_of_none (char_of_ne (hne (by decide) (by decide) (by decide)))),
    bind_of_some hsetting]
  dsimp only
  rw [bind_of_some (lineRest_end rest)]
  rfl

/-- A path of a header: how it is written is read as the names of the tables. -/
structure IsPath (path : String) (names : List String) : Prop where
  head : ∃ c tail, path.toList = c :: tail ∧ c ≠ '['
  reads : ∀ rest, key (path.toList ++ ']' :: rest) = some (names, ']' :: rest)
  plain : Plain path.toList

theorem isPath_source : IsPath "source" ["source"] where
  head := ⟨'s', _, rfl, by decide⟩
  reads rest := key_writeKey "source" (Or.inl rfl) (by decide) (by decide) (by decide)
  plain := by decide

theorem isPath_pool : IsPath "pool" ["pool"] where
  head := ⟨'p', _, rfl, by decide⟩
  reads rest := key_writeKey "pool" (Or.inl rfl) (by decide) (by decide) (by decide)
  plain := by decide

theorem isPath_properties : IsPath "source.properties" ["source", "properties"] where
  head := ⟨'s', _, rfl, by decide⟩
  reads rest := key_writeKey_dot "source" "properties" rest (by decide) (by decide) (by decide)
  plain := by decide

theorem line_header {path : String} {names : List String} (h : IsPath path names)
    (rest : List Char) :
    line ('[' :: path.toList ++ [']', '\n'] ++ rest) = some (.header names, rest) := by
  have htext : '[' :: path.toList ++ [']', '\n'] ++ rest =
      '[' :: (path.toList ++ ']' :: '\n' :: rest) := by simp
  have hopen : literal ['[', '['] ('[' :: (path.toList ++ ']' :: '\n' :: rest)) = none := by
    obtain ⟨c, tail, hc, hne⟩ := h.head
    rw [hc, literal, char_self]
    show literal ['['] (c :: (tail ++ _)) = none
    rw [literal, char_of_ne hne]
    rfl
  rw [htext, line, bind_of_some (spaces_of_stop (by decide) _),
    orElse_of_none (bind_of_none (char_of_ne (by decide))),
    orElse_of_none (bind_of_none (comment_of_ne (by decide) _)),
    orElse_of_none (bind_of_none hopen)]
  refine orElse_of_some ?_
  rw [bind_of_some char_self, bind_of_some (h.reads _), bind_of_some char_self,
    bind_of_some (lineRest_end rest)]
  rfl

theorem line_nil : line [] = none := by
  rfl

/-! ## Pieces of a document -/

/-- A piece of a document that consists of whole lines. -/
structure ReadsAs (cs : List Char) (ls : List Line) : Prop where
  reads : ∀ {rest ls' rest'}, many line rest = some (ls', rest') →
    many line (cs ++ rest) = some (ls ++ ls', rest')
  plain : Plain cs

theorem readsAs_nil : ReadsAs [] [] where
  reads h := h
  plain := plain_nil

theorem readsAs_line {cs : List Char} {l : Line} (hne : cs ≠ []) (hplain : Plain cs)
    (h : ∀ rest, line (cs ++ rest) = some (l, rest)) : ReadsAs cs [l] where
  reads hrest := by
    refine many_of_some (h _) ?_ hrest
    have := List.length_pos_iff.2 hne
    rw [List.length_append]
    omega
  plain := hplain

theorem ReadsAs.append {cs₁ cs₂ : List Char} {ls₁ ls₂ : List Line} (h₁ : ReadsAs cs₁ ls₁)
    (h₂ : ReadsAs cs₂ ls₂) : ReadsAs (cs₁ ++ cs₂) (ls₁ ++ ls₂) where
  reads hrest := by
    rw [List.append_assoc, List.append_assoc]
    exact h₁.reads (h₂.reads hrest)
  plain := h₁.plain.append h₂.plain

/-- Settings as they are written, and their keys and values. -/
inductive WritesAll : List (String × List Char) → Entries → Prop
  | nil : WritesAll [] []
  | cons {k : String} {cs : List Char} {v : Value} {settings : List (String × List Char)}
      {entries : Entries} (head : Writes cs v) (tail : WritesAll settings entries) :
      WritesAll ((k, cs) :: settings) ((k, v) :: entries)

theorem WritesAll.append {s₁ s₂ : List (String × List Char)} {e₁ e₂ : Entries}
    (h₁ : WritesAll s₁ e₁) (h₂ : WritesAll s₂ e₂) : WritesAll (s₁ ++ s₂) (e₁ ++ e₂) := by
  induction h₁ with
  | nil => exact h₂
  | cons head _ ih => exact .cons head ih

/-- The lines that settings make. -/
def settingLines (entries : Entries) : List Line :=
  entries.map fun e => .setting [e.1] e.2

theorem readsAs_writeSetting (k : String) {cs : List Char} {v : Value} (h : Writes cs v) :
    ReadsAs (writeSetting k cs) [.setting [k] v] := by
  refine readsAs_line (by simp [writeSetting]) ?_ (line_writeSetting k h)
  exact (((plain_writeKey k).append (by decide)).append h.plain).append (by decide)

theorem WritesAll.readsAs {settings : List (String × List Char)} {entries : Entries}
    (h : WritesAll settings entries) :
    ReadsAs (settings.flatMap fun s => writeSetting s.1 s.2) (settingLines entries) := by
  induction h with
  | nil => exact readsAs_nil
  | cons head _ ih => exact (readsAs_writeSetting _ head).append ih

/-- **A written table is read back**: its header, and then its settings. -/
theorem readsAs_writeTable {path : String} {names : List String} (hpath : IsPath path names)
    {settings : List (String × List Char)} {entries : Entries} (h : WritesAll settings entries) :
    ReadsAs (writeTable path settings) (.header names :: settingLines entries) := by
  have hheader : ReadsAs ('[' :: path.toList ++ [']', '\n']) [.header names] :=
    readsAs_line (by simp) ((hpath.plain.cons (by decide)).append (by decide)) (line_header hpath)
  exact hheader.append h.readsAs

theorem writeTables_concat : ∀ {ts : List (List Char)}, ts ≠ [] → ∀ t,
    writeTables (ts ++ [t]) = writeTables ts ++ '\n' :: t
  | [_], _, _ => rfl
  | t :: u :: ts, _, last => by
    have htail := writeTables_concat (List.cons_ne_nil u ts) last
    show t ++ '\n' :: writeTables (u :: ts ++ [last]) = t ++ '\n' :: writeTables (u :: ts) ++ _
    rw [htail, List.append_assoc, List.cons_append]

/-- One more table, behind an empty line. -/
theorem ReadsAs.concat {ts : List (List Char)} {t : List Char} {ls ls' : List Line}
    (hne : ts ≠ []) (hts : ReadsAs (writeTables ts) ls) (ht : ReadsAs t ls') :
    ReadsAs (writeTables (ts ++ [t])) (ls ++ .blank :: ls') := by
  have hblank : ReadsAs ['\n'] [.blank] := readsAs_line (by simp) (by decide) line_end
  rw [writeTables_concat hne]
  exact hts.append (hblank.append ht)

/-- **The lines of a document** that begins with a header. -/
theorem lines_of_readsAs {text : String} {tail : List Char} {ls : List Line}
    (hhead : text.toList = '[' :: tail) (h : ReadsAs text.toList ls) : lines text = some ls := by
  have hmark : withoutMark text.toList = text.toList := by
    rw [hhead]
    rfl
  have hmany : many line (text.toList ++ []) = some (ls ++ [], []) :=
    h.reads (many_of_none line_nil)
  have hspaces : spaces [] = some ((), []) := rfl
  rw [List.append_nil, List.append_nil] at hmany
  rw [lines, hmark, plainLineEnds_of_plain h.plain, readAll, bind_of_some hmany, bind_of_some hspaces]
  rfl

end ConnPool.Toml
