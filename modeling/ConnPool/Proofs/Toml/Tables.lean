/-
  What the lines of a written document mean.

  A written document has three kinds of tables at most: the first one, a table inside it, and one more
  beside it.  While its settings are read a table is kept apart; the next header puts it at the end of
  its parent, and there the header finds nothing under its own name.  So every table of the document is
  found as it was written, and in its place (`meaning_documentLines`).
-/
import ConnPool.Toml.Document
import ConnPool.Proofs.Toml.Lines

namespace ConnPool.Toml

/-! ## Settings -/

theorem lookup_none_iff {l : List (String × α)} {name : String} :
    l.lookup name = none ↔ ∀ e ∈ l, e.1 ≠ name := by
  rw [List.lookup_eq_none_iff]
  refine forall_congr' fun e => forall_congr' fun _ => ?_
  rw [bne_iff_ne]
  exact ne_comm

/-- The entries that settings leave in the open table. -/
def settingNodes (entries : Entries) : Nodes :=
  entries.map fun e => (e.1, .value e.2)

theorem closeEntries_settingNodes (entries : Entries) :
    Node.closeEntries (settingNodes entries) = entries := by
  rw [Node.closeEntries_eq, settingNodes, List.map_map]
  exact List.map_id' entries

theorem closeEntries_concat (entries : Nodes) (name : String) (n : Node) :
    Node.closeEntries (entries ++ [(name, n)]) = Node.closeEntries entries ++ [(name, n.close)] := by
  rw [Node.closeEntries_eq, Node.closeEntries_eq, List.map_append]
  rfl

theorem lookup_settingNodes {entries : Entries} {name : String}
    (h : ∀ e ∈ entries, e.1 ≠ name) : (settingNodes entries).lookup name = none := by
  refine lookup_none_iff.2 fun n hn => ?_
  obtain ⟨e, he, rfl⟩ := List.mem_map.1 hn
  exact h e he

theorem addSetting_new {d : Draft} {name : String} (v : Value)
    (h : d.entries.lookup name = none) :
    d.addLine (.setting [name] v) = some { d with entries := d.entries ++ [(name, .value v)] } := by
  simp [Draft.addLine, Draft.addSetting, Nodes.descend, Nodes.add, h]

/-- **Settings with names of their own** are added in their order. -/
theorem addLines_settings : ∀ {entries : Entries} {d : Draft},
    (entries.map Prod.fst).Nodup → (∀ e ∈ entries, d.entries.lookup e.1 = none) →
    (settingLines entries).foldlM Draft.addLine d =
      some { d with entries := d.entries ++ settingNodes entries }
  | [], d, _, _ => by simp [settingLines, settingNodes]
  | (k, v) :: entries, d, hnodup, hnew => by
    have hnodup' := List.nodup_cons.1 hnodup
    have hnew' : ∀ e ∈ entries, (d.entries ++ [(k, Node.value v)]).lookup e.1 = none := by
      intro e he
      rw [List.lookup_append, hnew e (List.mem_cons_of_mem _ he), Option.none_or, lookup_none_iff]
      intro n hn heq
      rw [List.mem_singleton.1 hn] at heq
      exact hnodup'.1 (List.mem_map.2 ⟨e, he, heq.symm⟩)
    have hrest := addLines_settings (d := { d with entries := d.entries ++ [(k, .value v)] })
      hnodup'.2 hnew'
    show (Draft.addLine d (.setting [k] v) >>= (settingLines entries).foldlM Draft.addLine) = _
    rw [addSetting_new v (hnew _ List.mem_cons_self)]
    refine hrest.trans ?_
    simp [settingNodes]

/-! ## Headers -/

variable {closed entries inner : Nodes} {outer name : String}

theorem erase_of_lookup (h : inner.lookup name = none) : inner.erase name = inner := by
  exact List.filter_eq_self.2 fun e he => decide_eq_true (lookup_none_iff.1 h e he)

/-- A table at the top is put behind the others. -/
theorem closeTable_top (h : closed.lookup name = none) :
    Draft.closeTable ⟨closed, entries, .table [] name⟩ =
      some (closed ++ [(name, .table .header entries)]) := by
  simp [Draft.closeTable, Nodes.descend, Nodes.add, h]

/-- A table inside the only other one is put at its end. -/
theorem closeTable_within (h : inner.lookup name = none) :
    Draft.closeTable ⟨[(outer, .table .header inner)], entries, .table [outer] name⟩ =
      some [(outer, .table .header (inner ++ [(name, .table .header entries)]))] := by
  simp [Draft.closeTable, Nodes.descend, Nodes.add, Nodes.replace, h]

theorem addHeader_top {d : Draft} (hclose : d.closeTable = some closed)
    (h : closed.lookup name = none) :
    d.addLine (.header [name]) = some ⟨closed, [], .table [] name⟩ := by
  simp [Draft.addLine, Draft.openTable, Draft.implied, Draft.tableAt, Nodes.descend, hclose, h,
    erase_of_lookup h]

theorem addHeader_within {d : Draft}
    (hclose : d.closeTable = some [(outer, .table .header inner)])
    (h : inner.lookup name = none) :
    d.addLine (.header [outer, name]) =
      some ⟨[(outer, .table .header inner)], [], .table [outer] name⟩ := by
  simp [Draft.addLine, Draft.openTable, Draft.implied, Draft.tableAt, Nodes.descend, Nodes.replace,
    hclose, h, erase_of_lookup h]

/-! ## Documents -/

/-- The lines of a table, behind an empty line. -/
def tableLines (path : List String) : Option Entries → List Line
  | none => []
  | some entries => .blank :: .header path :: settingLines entries

/-- The lines of a document: a table, perhaps a table inside it, perhaps one beside it. -/
def documentLines (outer name other : String) (entries : Entries) (within beside : Option Entries) :
    List Line :=
  .header [outer] :: settingLines entries ++ tableLines [outer, name] within ++
    tableLines [other] beside

/-- An entry that is a table. -/
def tableEntry (name : String) : Option Entries → Entries
  | none => []
  | some entries => [(name, .table entries)]

/-- What these lines mean. -/
def documentEntries (outer name other : String) (entries : Entries)
    (within beside : Option Entries) : Entries :=
  (outer, .table (entries ++ tableEntry name within)) :: tableEntry other beside

/-- The lines of one table, and what has been written before and behind them. -/
theorem addLines_table {d : Draft} {path : List String} {place : Place} {entries : Entries}
    (hopen : d.addLine (.header path) = some ⟨closed, [], place⟩)
    (hnodup : (entries.map Prod.fst).Nodup) :
    (.header path :: settingLines entries).foldlM Draft.addLine d =
      some ⟨closed, settingNodes entries, place⟩ := by
  rw [List.foldlM_cons, hopen]
  exact addLines_settings hnodup fun _ _ => rfl

/-- A table behind an empty line, if it is there: the document that closing the last table makes. -/
theorem closed_tableLines {d : Draft} {path : List String} {place : Place} {nodes : Nodes}
    {add : Entries → Nodes} (hclose : d.closeTable = some nodes)
    (hopen : d.addLine (.header path) = some ⟨closed, [], place⟩)
    (hadd : ∀ entries, Draft.closeTable ⟨closed, settingNodes entries, place⟩ = some (add entries))
    {table : Option Entries} (hnodup : ∀ entries ∈ table, (entries.map Prod.fst).Nodup) :
    ∃ d', (tableLines path table).foldlM Draft.addLine d = some d' ∧
      d'.closeTable = some (table.elim nodes add) := by
  cases table with
  | none => exact ⟨d, rfl, hclose⟩
  | some entries =>
    refine ⟨_, ?_, hadd entries⟩
    show (Draft.addLine d .blank >>= (.header path :: settingLines entries).foldlM Draft.addLine) = _
    exact addLines_table hopen (hnodup entries rfl)

/-- **What the lines of a written document mean.** -/
theorem meaning_documentLines {outer name other : String} {entries : Entries}
    {within beside : Option Entries} (hother : other ≠ outer)
    (hnodup : (entries.map Prod.fst).Nodup) (hname : ∀ e ∈ entries, e.1 ≠ name)
    (hwithin : ∀ es ∈ within, (es.map Prod.fst).Nodup)
    (hbeside : ∀ es ∈ beside, (es.map Prod.fst).Nodup) :
    (do
      let draft ← (documentLines outer name other entries within beside).foldlM Draft.addLine
        Draft.empty
      let nodes ← draft.closeTable
      some (Node.closeEntries nodes)) =
      some (documentEntries outer name other entries within beside) := by
  have hopen : Draft.empty.addLine (.header [outer]) = some ⟨[], [], .table [] outer⟩ :=
    addHeader_top rfl rfl
  have hfirst := addLines_table hopen hnodup
  have hclose : Draft.closeTable ⟨[], settingNodes entries, .table [] outer⟩ =
      some [(outer, .table .header (settingNodes entries))] := closeTable_top rfl
  -- the table inside the first one
  have hnew := lookup_settingNodes hname
  obtain ⟨d₂, hsecond, hclose₂⟩ := closed_tableLines hclose (addHeader_within hclose hnew)
    (fun es => closeTable_within hnew) hwithin
  -- the table beside it
  obtain ⟨inner, hinner, hentries⟩ : ∃ inner : Nodes,
      d₂.closeTable = some [(outer, .table .header inner)] ∧
      Node.closeEntries inner = entries ++ tableEntry name within := by
    cases within with
    | none => exact ⟨_, hclose₂, by simp [closeEntries_settingNodes, tableEntry]⟩
    | some es =>
      exact ⟨_, hclose₂, by simp [closeEntries_concat, Node.close, closeEntries_settingNodes,
        tableEntry]⟩
  have hbesideNew : List.lookup other [(outer, Node.table .header inner)] = none := by
    refine lookup_none_iff.2 fun e he => ?_
    rw [List.mem_singleton.1 he]
    exact hother.symm
  obtain ⟨d₃, hthird, hclose₃⟩ := closed_tableLines hinner (addHeader_top hinner hbesideNew)
    (fun es => closeTable_top hbesideNew) hbeside
  have hlines : (documentLines outer name other entries within beside).foldlM Draft.addLine
      Draft.empty = some d₃ := by
    rw [documentLines, List.foldlM_append, List.foldlM_append, hfirst]
    show ((tableLines _ within).foldlM Draft.addLine _ >>= _) = _
    rw [hsecond]
    exact hthird
  rw [hlines]
  show (d₃.closeTable >>= _) = _
  rw [hclose₃]
  show some (Node.closeEntries _) = _
  cases beside with
  | none => simp [Node.closeEntries, Node.close, hentries, documentEntries, tableEntry]
  | some es =>
    simp [Node.closeEntries, Node.close, hentries, closeEntries_settingNodes, documentEntries,
      tableEntry]

end ConnPool.Toml
