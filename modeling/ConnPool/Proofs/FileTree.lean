/-
  What is written to a file is read from it again.

  A file is put where there is a file already, or where a folder has nothing under a name (`Takes`).
  Then everything that was in the tree is still there, a folder as a folder and a file as a file
  (`keeps_put`), so every path leads where it led before (`walk_of_keeps`), and the one to the file leads
  to the file.
-/
import ConnPool.FileTree
import ConnPool.Properties

namespace ConnPool

namespace FileTree

open Properties (lookup_cons)

/-! ## Places in a tree -/

theorem at?_folder_cons (entries : List (String × FileTree)) (name : String) (rest : List String) :
    (folder entries).at? (name :: rest) = (entries.lookup name).bind (·.at? rest) := by
  rw [at?]
  cases entries.lookup name <;> rfl

theorem at?_append : ∀ (t : FileTree) (here rest : List String),
    t.at? (here ++ rest) = (t.at? here).bind (·.at? rest)
  | t, [], rest => rfl
  | file _, _ :: _, _ => rfl
  | folder entries, name :: here, rest => by
    rw [List.cons_append, at?_folder_cons, at?_folder_cons]
    cases entries.lookup name with
    | none => rfl
    | some t => exact at?_append t here rest

/-- What stands under a name in the folder at a place. -/
theorem at?_concat {t : FileTree} {here : List String} {entries : List (String × FileTree)}
    (h : t.at? here = some (folder entries)) (name : String) :
    t.at? (here ++ [name]) = entries.lookup name := by
  rw [at?_append, h, Option.bind_some, at?_folder_cons]
  cases entries.lookup name <;> rfl

theorem lookup_map_entry (name other : String) (t : FileTree) : ∀ entries : List (String × FileTree),
    (entries.map fun e => if e.1 = name then (name, t) else e).lookup other =
      if other = name then (entries.lookup name).map fun _ => t else entries.lookup other
  | [] => by
    split <;> rfl
  | (k, u) :: entries => by
    have ih := lookup_map_entry name other t entries
    rw [List.map_cons, lookup_cons, lookup_cons]
    by_cases hk : k = name
    · subst hk
      rw [if_pos rfl, if_pos rfl, lookup_cons, ih]
      split <;> rfl
    · rw [if_neg hk, if_neg (Ne.symm hk), lookup_cons, ih]
      by_cases ho : other = name
      · rw [if_pos ho, if_neg (ho ▸ Ne.symm hk), if_pos ho]
      · rw [if_neg ho, if_neg ho]

/-- Putting a tree under a name changes what is under that name, and nothing else. -/
theorem lookup_setEntry (entries : List (String × FileTree)) (name other : String) (t : FileTree) :
    (setEntry entries name t).lookup other =
      if other = name then some t else entries.lookup other := by
  unfold setEntry
  split
  case isTrue h =>
    obtain ⟨u, hu⟩ := Option.isSome_iff_exists.1 h
    rw [lookup_map_entry, hu]
    rfl
  case isFalse h =>
    have hnone : entries.lookup name = none := Option.not_isSome_iff_eq_none.1 h
    rw [List.lookup_append, lookup_cons]
    by_cases ho : other = name
    · rw [ho, hnone, if_pos rfl, if_pos rfl]
      rfl
    · rw [if_neg ho, if_neg ho]
      exact Option.or_none

theorem at?_put (new : FileTree) : ∀ (here : List String) (t : FileTree),
    (put new here t).at? here = some new
  | [], _ => by rw [put, at?]
  | name :: rest, folder entries => by
    rw [put, at?_folder_cons, lookup_setEntry, if_pos rfl]
    exact at?_put new rest _
  | name :: rest, file _ => by
    rw [put, at?_folder_cons, List.lookup_cons_self]
    exact at?_put new rest _

/-! ## What a tree keeps -/

/-- Whether a tree is a folder. -/
def isFolder : FileTree → Bool
  | folder _ => true
  | file _ => false

/-- Whatever is in one tree is in the other too, folders as folders and files as files. -/
def Keeps (t t' : FileTree) : Prop :=
  ∀ here u, t.at? here = some u → ∃ u', t'.at? here = some u' ∧ u'.isFolder = u.isFolder

theorem Keeps.file (content content' : ByteArray) : Keeps (file content) (file content')
  | [], _, h => ⟨_, rfl, by cases h; rfl⟩
  | _ :: _, _, h => nomatch h

theorem Keeps.folder {t t' : FileTree} (h : Keeps t t') {here : List String}
    {entries : List (String × FileTree)} (hhere : t.at? here = some (folder entries)) :
    ∃ entries', t'.at? here = some (folder entries') := by
  obtain ⟨u', hu', hkind⟩ := h here _ hhere
  cases u' with
  | file content => exact nomatch hkind
  | folder entries' => exact ⟨entries', hu'⟩

/-- A folder keeps what is in it if what is put under a name keeps what was there. -/
theorem keeps_setEntry {entries : List (String × FileTree)} {name : String} {t : FileTree}
    (h : ∀ u, entries.lookup name = some u → Keeps u t) :
    Keeps (folder entries) (folder (setEntry entries name t))
  | [], _, hu => ⟨_, rfl, by cases hu; rfl⟩
  | other :: rest, u, hu => by
    rw [at?_folder_cons] at hu
    obtain ⟨v, hv, hrest⟩ := Option.bind_eq_some_iff.1 hu
    rw [at?_folder_cons, lookup_setEntry]
    by_cases hname : other = name
    · subst hname
      rw [if_pos rfl]
      exact h v hv rest u hrest
    · rw [if_neg hname, hv]
      exact ⟨u, hrest, rfl⟩

/-- A place for a file: there is one already, or its folder has nothing under its name. -/
inductive Takes : FileTree → List String → Prop
  | file (content : ByteArray) : Takes (file content) []
  | entry {entries : List (String × FileTree)} {name : String} (h : entries.lookup name = none) :
    Takes (folder entries) [name]
  | inside {entries : List (String × FileTree)} {name : String} {t : FileTree} {rest : List String}
    (h : entries.lookup name = some t) (hrest : Takes t rest) : Takes (folder entries) (name :: rest)

theorem takes_append : ∀ {t u : FileTree} {here rest : List String},
    t.at? here = some u → Takes u rest → Takes t (here ++ rest)
  | t, u, [], rest, h, hrest => by
    obtain rfl := Option.some.inj h
    exact hrest
  | .file _, _, _ :: _, _, h, _ => nomatch h
  | folder entries, u, name :: here, rest, h, hrest => by
    rw [at?_folder_cons] at h
    obtain ⟨t, ht, hhere⟩ := Option.bind_eq_some_iff.1 h
    exact .inside ht (takes_append hhere hrest)

/-- **A file takes nothing from a tree.** -/
theorem keeps_put {t : FileTree} {here : List String} (content : ByteArray) (h : Takes t here) :
    Keeps t (put (file content) here t) := by
  induction h with
  | file content' => exact Keeps.file content' content
  | entry h =>
    refine keeps_setEntry fun u hu => ?_
    rw [h] at hu
    exact nomatch hu
  | inside h hrest ih =>
    rw [put, h]
    refine keeps_setEntry fun u hu => ?_
    obtain rfl := Option.some.inj (h.symm.trans hu)
    exact ih

/-! ## Paths -/

/-- Where a name leads: it stays, it goes up, or it is a name of its own and there is something under
it. -/
theorem walk_eq_ok_iff {t : FileTree} {here there : List String} {name : String} :
    t.walk here name = .ok there ↔ ∃ entries, t.at? here = some (folder entries) ∧
      (stays name = true ∧ there = here ∨
       stays name = false ∧ name = ".." ∧ there = here.dropLast ∨
       stays name = false ∧ name ≠ ".." ∧ name.utf8ByteSize ≤ 255 ∧
         (entries.lookup name).isSome ∧ there = here ++ [name]) := by
  unfold walk enter
  split
  case h_1 hnone => simp [hnone]
  case h_2 content hfile => simp [hfile]
  case h_3 entries hfolder =>
    simp only [hfolder, Option.some.injEq, folder.injEq, exists_eq_left']
    grind

/-- Why a name leads nowhere from a place that there is. -/
theorem lookup_of_walk_notFound {t u : FileTree} {here : List String} {name : String}
    (hu : t.at? here = some u) (h : t.walk here name = .error .notFound) :
    ∃ entries, u = folder entries ∧ stays name = false ∧ name ≠ ".." ∧
      name.utf8ByteSize ≤ 255 ∧ entries.lookup name = none := by
  unfold walk enter at h
  rw [hu] at h
  cases u with
  | file content => exact nomatch h
  | folder entries =>
    refine ⟨entries, rfl, ?_⟩
    rw [← Option.not_isSome_iff_eq_none]
    grind

/-- **A name leads where it led before.** -/
theorem walk_of_keeps {t t' : FileTree} (h : Keeps t t') {here there : List String} {name : String}
    (hwalk : t.walk here name = .ok there) : t'.walk here name = .ok there := by
  obtain ⟨entries, hhere, hname⟩ := walk_eq_ok_iff.1 hwalk
  obtain ⟨entries', hhere'⟩ := h.folder hhere
  refine walk_eq_ok_iff.2 ⟨entries', hhere', ?_⟩
  rcases hname with hstays | hup | ⟨hstays, hup, hsize, hsome, hthere⟩
  · exact .inl hstays
  · exact .inr (.inl hup)
  · -- what the folder has under a name is a tree of its own, which is kept
    refine .inr (.inr ⟨hstays, hup, hsize, ?_, hthere⟩)
    obtain ⟨u, hu⟩ := Option.isSome_iff_exists.1 hsome
    obtain ⟨u', hu', -⟩ := h _ u ((at?_concat hhere name).trans hu)
    rw [at?_concat hhere'] at hu'
    exact Option.isSome_iff_exists.2 ⟨u', hu'⟩

/-- A file that is there is a place for a file. -/
theorem takes_of_file {t : FileTree} {here : List String} {content : ByteArray}
    (h : t.at? here = some (.file content)) : Takes t here := by
  have htakes := takes_append h (.file content)
  rwa [List.append_nil] at htakes

/-- The place for a file takes a file, and then the name of the file leads there. -/
theorem walk_put_of_placeFor {t : FileTree} {folder here : List String} {name : String}
    (h : t.placeFor folder name = .ok here) (content : ByteArray) :
    Takes t here ∧ (put (file content) here t).walk folder name = .ok here := by
  unfold placeFor at h
  split at h
  case h_1 there hwalk =>
    split at h
    case h_1 old hfile =>
      cases h
      have htakes := takes_of_file hfile
      exact ⟨htakes, walk_of_keeps (keeps_put content htakes) hwalk⟩
    case h_2 => exact nomatch h
  case h_2 hwalk =>
    split at h
    case isTrue hsome =>
      cases h
      obtain ⟨u, hu⟩ := Option.isSome_iff_exists.1 hsome
      obtain ⟨entries, rfl, hstays, hup, hsize, hnone⟩ := lookup_of_walk_notFound hu hwalk
      have htakes := takes_append hu (.entry hnone)
      -- the folder is still one, and it now has the file under the name
      obtain ⟨entries', hfolder⟩ := (keeps_put content htakes).folder hu
      have hbelow := at?_put (file content) (folder ++ [name]) t
      rw [at?_concat hfolder] at hbelow
      exact ⟨htakes, walk_eq_ok_iff.2 ⟨entries', hfolder, .inr (.inr ⟨hstays, hup, hsize,
        Option.isSome_iff_exists.2 ⟨_, hbelow⟩, rfl⟩)⟩⟩
    case isFalse => exact nomatch h
  case h_3 => exact nomatch h

theorem foldlM_walk_of_keeps {t t' : FileTree} (h : Keeps t t') : ∀ {names here there : List String},
    names.foldlM t.walk here = .ok there → names.foldlM t'.walk here = .ok there
  | [], _, _, hwalk => hwalk
  | name :: names, here, there, hwalk => by
    rw [List.foldlM_cons] at hwalk ⊢
    obtain ⟨next, hname, hrest⟩ := Config.bind_ok hwalk
    rw [walk_of_keeps h hname]
    exact foldlM_walk_of_keeps h hrest

/-- A text is the content of its file. -/
theorem decodeText_toUTF8 (text : String) : decodeText text.toUTF8 = .ok text := by
  have hvalid : text.toUTF8.IsValidUTF8 := text.isValidUTF8
  unfold decodeText String.fromUTF8?
  rw [dif_pos hvalid]
  rfl

theorem textAt_put (text : String) (here : List String) (t : FileTree) :
    (put (file text.toUTF8) here t).textAt here = .ok text := by
  rw [textAt, at?_put]
  exact decodeText_toUTF8 text

end FileTree

namespace FileSystem

open FileTree
open Config (bind_ok)

/-- A path is followed to its last name, and then that name is. -/
theorem locate_eq (s : FileSystem) (path : String) :
    s.locate path = s.locateFolder path >>= (s.root.walk · (lastName path)) := by
  have hne : names path ≠ [] := by
    unfold names
    rw [Ne, List.map_eq_nil_iff]
    exact List.splitOn_ne_nil _ _
  have hnames : (names path).dropLast ++ [lastName path] = names path := by
    rw [lastName, List.getLastD_eq_getLast?, List.getLast?_eq_some_getLast hne]
    exact List.dropLast_concat_getLast hne
  unfold locate locateFolder
  conv => lhs; rw [← hnames]
  simp only [List.foldlM_append, List.foldlM_cons, List.foldlM_nil, bind_pure, bind_assoc]

/-- A path that leads somewhere leads there as well when more has been put into the tree. -/
theorem locateFolder_of_keeps {s : FileSystem} {root : FileTree} {path : String}
    {folder : List String} (h : Keeps s.root root) (hfolder : s.locateFolder path = .ok folder) :
    { s with root }.locateFolder path = .ok folder := by
  obtain ⟨start, hstart, hwalk⟩ := bind_ok hfolder
  unfold locateFolder
  show s.startOf path >>= _ = _
  rw [hstart]
  exact foldlM_walk_of_keeps h hwalk

/-- **What is written to a file is read from it.** -/
theorem readText_writeText {s s' : FileSystem} {path text : String}
    (h : s.writeText path text = .ok s') : s'.readText path = .ok text := by
  obtain ⟨folder, hfolder, h⟩ := bind_ok h
  obtain ⟨here, hplace, h⟩ := bind_ok h
  obtain rfl := Except.ok.inj h
  obtain ⟨htakes, hname⟩ := walk_put_of_placeFor hplace text.toUTF8
  have hlocate : FileSystem.locate { s with root := put (.file text.toUTF8) here s.root } path =
      .ok here := by
    rw [locate_eq, locateFolder_of_keeps (keeps_put text.toUTF8 htakes) hfolder]
    exact hname
  unfold readText
  rw [hlocate]
  exact textAt_put text here s.root

end FileSystem

end ConnPool
