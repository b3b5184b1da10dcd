/-
  A bag of named texts, as drivers take them.

  The entries stand in ascending order of their names and no name occurs twice; the order is part of
  the type, so two bags with the same entries are the same value.  `set` puts a text under a name,
  whether or not the name was there, and `get?_set` says that this is all it does.
-/

namespace ConnPool

/-- Named texts in ascending order of the names. -/
structure Properties where
  entries : List (String × String)
  ascending : entries.Pairwise (fun a b => a.1 < b.1)
deriving DecidableEq, Repr

namespace Properties

/-- The bag with nothing in it. -/
def empty : Properties := ⟨[], .nil⟩

instance : Inhabited Properties := ⟨empty⟩

/-- The text under a name. -/
def get? (p : Properties) (name : String) : Option String :=
  p.entries.lookup name

/-- Puts `value` under `name` in ascending entries. -/
def place (name value : String) : List (String × String) → List (String × String)
  | [] => [(name, value)]
  | (k, v) :: rest =>
    if name < k then (name, value) :: (k, v) :: rest
    else if name = k then (k, value) :: rest
    else (k, v) :: place name value rest

theorem mem_place {name value : String} {e : String × String} :
    ∀ {l : List (String × String)}, e ∈ place name value l → e = (name, value) ∨ e ∈ l
  | [], h => by simpa [place] using h
  | (k, v) :: rest, h => by
    unfold place at h
    split at h
    · simpa using h
    · split at h
      · rename_i hk
        subst hk
        rcases List.mem_cons.1 h with rfl | h
        · exact .inl rfl
        · exact .inr (List.mem_cons_of_mem _ h)
      · rcases List.mem_cons.1 h with rfl | h
        · exact .inr (List.mem_cons_self ..)
        · rcases mem_place h with rfl | h
          · exact .inl rfl
          · exact .inr (List.mem_cons_of_mem _ h)

theorem ascending_place (name value : String) :
    ∀ {l : List (String × String)}, l.Pairwise (fun a b => a.1 < b.1) →
      (place name value l).Pairwise (fun a b => a.1 < b.1)
  | [], _ => by simp [place]
  | (k, v) :: rest, h => by
    have hr := List.pairwise_cons.1 h
    unfold place
    split
    · rename_i hlt
      refine List.pairwise_cons.2 ⟨?_, h⟩
      intro e he
      rcases List.mem_cons.1 he with rfl | he
      · exact hlt
      · exact String.lt_trans hlt (hr.1 e he)
    · split
      · exact List.pairwise_cons.2 ⟨hr.1, hr.2⟩
      · rename_i hlt hne
        refine List.pairwise_cons.2 ⟨?_, ascending_place name value hr.2⟩
        intro e he
        rcases mem_place he with rfl | he
        · grind
        · exact hr.1 e he

/-- The bag with `value` under `name`. -/
def set (p : Properties) (name value : String) : Properties :=
  ⟨place name value p.entries, ascending_place name value p.ascending⟩

/-- The bag with `value` under `name`, if there is a value. -/
def override (p : Properties) (name : String) : Option String → Properties
  | none => p
  | some value => p.set name value

/-- The bag of a list of entries; of two entries with one name, the later counts. -/
def ofList (entries : List (String × String)) : Properties :=
  entries.foldl (fun p e => p.set e.1 e.2) empty

/-! ## Laws -/

theorem lookup_cons (k : String) (v : α) (other : String) (rest : List (String × α)) :
    ((k, v) :: rest).lookup other = if other = k then some v else rest.lookup other := by
  by_cases h : other = k
  · simp [h]
  · have hb : (other == k) = false := by simpa using h
    rw [List.lookup_cons, hb]
    simp [h]

theorem lookup_place (name value other : String) :
    ∀ l : List (String × String),
      (place name value l).lookup other = if other = name then some value else l.lookup other
  | [] => by simp [place]
  | (k, v) :: rest => by
    have ih := lookup_place name value other rest
    unfold place
    split
    · simp [lookup_cons]
    · split
      · rename_i hk
        subst hk
        by_cases ho : other = name <;> simp [lookup_cons, ho]
      · rename_i hlt hne
        by_cases ho : other = k
        · subst ho
          have : other ≠ name := fun he => hne he.symm
          simp [this]
        · simp [lookup_cons, ho, ih]

/-- **Setting is local**: the set name has the new text, and every other name what it had. -/
theorem get?_set (p : Properties) (name value other : String) :
    (p.set name value).get? other = if other = name then some value else p.get? other :=
  lookup_place name value other p.entries

end Properties

end ConnPool
