/-
  Blank characters, and text without the blanks around it.

  A blank is a character with the Unicode property White_Space: six control characters, the
  space, and the eighteen wider, narrower or unbreakable spaces and separators.  Settings are
  read with blanks removed on both sides, and a setting made of blanks only counts as empty.

  `trim` takes the blanks off one end and then off the other; `trim_eq_nil_iff` says that nothing
  is left exactly when the text is blank throughout.  What is left neither begins nor ends with a
  blank, and it is the only part of the text with nothing but blanks around it that does not
  (`exists_padding`, `trimmed_trim`, `trim_padded`).
-/

namespace ConnPool.Text

/-- A character with the Unicode property White_Space. -/
def isBlank (c : Char) : Bool :=
  let n := c.toNat
  (9 ≤ n && n ≤ 13) || n == 0x20 || n == 0x85 || n == 0xA0 || n == 0x1680 ||
    (0x2000 ≤ n && n ≤ 0x200A) || n == 0x2028 || n == 0x2029 || n == 0x202F ||
    n == 0x205F || n == 0x3000

/-- The characters of a text without the blanks before and behind it. -/
def trim (cs : List Char) : List Char :=
  ((cs.dropWhile isBlank).reverse.dropWhile isBlank).reverse

/-- Whether a text has no visible character at all. -/
def isBlankText (s : String) : Bool :=
  s.toList.all isBlank

/-- Characters all of which are blank. -/
def Blanks (cs : List Char) : Prop :=
  ∀ c ∈ cs, isBlank c = true

/-- Characters of which neither the first nor the last is blank. -/
structure Trimmed (cs : List Char) : Prop where
  first : ∀ c ∈ cs.head?, isBlank c = false
  last : ∀ c ∈ cs.getLast?, isBlank c = false

/-! ## Laws -/

theorem dropWhile_eq_nil_iff {p : Char → Bool} {cs : List Char} :
    cs.dropWhile p = [] ↔ ∀ c ∈ cs, p c = true := by
  induction cs with
  | nil => simp
  | cons c cs ih =>
    by_cases h : p c = true
    · simp [List.dropWhile, h, ih]
    · simp [List.dropWhile, h]

/-- **Nothing is left** of a text exactly when it is blank throughout. -/
theorem trim_eq_nil_iff {cs : List Char} : trim cs = [] ↔ ∀ c ∈ cs, isBlank c = true := by
  constructor
  · intro h
    have h1 : (cs.dropWhile isBlank).reverse.dropWhile isBlank = [] := by
      simpa [trim] using h
    have h2 : ∀ c ∈ cs.dropWhile isBlank, isBlank c = true := by
      intro c hc
      exact dropWhile_eq_nil_iff.1 h1 c (by simpa using hc)
    cases hd : cs.dropWhile isBlank with
    | nil => exact dropWhile_eq_nil_iff.1 hd
    | cons c r =>
      have hne : cs.dropWhile isBlank ≠ [] := by simp [hd]
      have hc : isBlank c = false := by
        have := List.head_dropWhile_not isBlank hne
        simpa [hd] using this
      have := h2 c (by simp [hd])
      simp [hc] at this
  · intro h
    have : cs.dropWhile isBlank = [] := dropWhile_eq_nil_iff.2 h
    simp [trim, this]

theorem isBlankText_iff {s : String} : isBlankText s = true ↔ Blanks s.toList :=
  List.all_eq_true

/-- Nothing is dropped from a text that begins outside the class. -/
theorem dropWhile_of_head {p : Char → Bool} {cs : List Char} (h : ∀ c ∈ cs.head?, p c = false) :
    cs.dropWhile p = cs := by
  cases cs with
  | nil => rfl
  | cons c cs => rw [List.dropWhile_cons_of_neg (by simp [h c rfl])]

/-- **A text is what is left of it**, with blanks around. -/
theorem exists_padding (cs : List Char) :
    ∃ before behind, Blanks before ∧ Blanks behind ∧ cs = before ++ trim cs ++ behind := by
  refine ⟨cs.takeWhile isBlank, ((cs.dropWhile isBlank).reverse.takeWhile isBlank).reverse,
    fun c hc => ?_, fun c hc => ?_, ?_⟩
  · exact List.all_eq_true.1 List.all_takeWhile c hc
  · exact List.all_eq_true.1 List.all_takeWhile c (List.mem_reverse.1 hc)
  · rw [trim, List.append_assoc, ← List.reverse_append, List.takeWhile_append_dropWhile,
      List.reverse_reverse, List.takeWhile_append_dropWhile]

theorem trimmed_trim (cs : List Char) : Trimmed (trim cs) := by
  have hstop : ∀ {l : List Char}, ∀ c ∈ (l.dropWhile isBlank).head?, isBlank c = false := by
    intro l c hc
    have h := List.head?_dropWhile_not isBlank l
    rw [Option.mem_def.1 hc] at h
    simpa using h
  refine ⟨fun c hc => ?_, fun c hc => ?_⟩
  · -- the blanks behind are taken off last, which leaves the first character alone
    obtain ⟨blanks, hblanks⟩ := List.reverse_prefix.2
      (List.dropWhile_suffix isBlank (l := (cs.dropWhile isBlank).reverse))
    rw [List.reverse_reverse] at hblanks
    refine hstop (l := cs) c ?_
    rw [← hblanks, List.head?_append, ← trim, Option.mem_def.1 hc]
    rfl
  · rw [trim, List.getLast?_reverse] at hc
    exact hstop c hc

/-- **Only the blanks around a text are taken off.** -/
theorem trim_padded {before cs behind : List Char} (hbefore : Blanks before) (hbehind : Blanks behind)
    (h : Trimmed cs) : trim (before ++ cs ++ behind) = cs := by
  cases cs with
  | nil =>
    refine trim_eq_nil_iff.2 fun c hc => ?_
    rw [List.append_nil, List.mem_append] at hc
    exact hc.elim (hbefore c) (hbehind c)
  | cons c cs =>
    have hfront : ((c :: cs) ++ behind).dropWhile isBlank = (c :: cs) ++ behind :=
      dropWhile_of_head fun d hd => h.first d hd
    have hback : (c :: cs).reverse.dropWhile isBlank = (c :: cs).reverse :=
      dropWhile_of_head fun d hd => h.last d (by rwa [List.head?_reverse] at hd)
    rw [trim, List.append_assoc, List.dropWhile_append_of_pos hbefore, hfront, List.reverse_append,
      List.dropWhile_append_of_pos fun d hd => hbehind d (List.mem_reverse.1 hd), hback,
      List.reverse_reverse]

/-- Nothing is taken off a text without blanks. -/
theorem trim_of_no_blank {cs : List Char} (h : ∀ c ∈ cs, isBlank c = false) : trim cs = cs := by
  have htrimmed : Trimmed cs :=
    ⟨fun c hc => h c (List.mem_of_head? hc), fun c hc => h c (List.mem_of_getLast? hc)⟩
  have hnone : Blanks [] := fun c hc => nomatch hc
  simpa using trim_padded hnone hnone htrimmed

example : trim "\t 5s \n".toList = "5s".toList := by decide
example : isBlankText (String.ofList [Char.ofNat 0xA0, Char.ofNat 0x3000]) = true := by decide

end ConnPool.Text
