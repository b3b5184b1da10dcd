/-
  The integers of a document fit in signed words.

  The check stands in the reader of integers and nowhere else (`signedWord`), and whatever is done with
  a value afterwards leaves its integers alone: it is put in an array, under a dotted key of a table in
  braces, or in a table of the document.  So the bound holds of all that a reader gives (`Yields`), and
  from there of the lines and of the tables they make, up to the entries of the document.
-/
import ConnPool.Toml.Document

namespace ConnPool.Toml

open ConnPool.Text ConnPool.Text.Reader

/-! ## What a reader gives -/

/-- All that a reader gives has a property. -/
def Yields (p : α → Prop) (r : Reader α) : Prop :=
  ∀ cs a rest, r cs = some (a, rest) → p a

section Yields

variable {p : α → Prop} {q : β → Prop} {r s : Reader α} {f : α → Reader β}

theorem yields_any (r : Reader α) : Yields (fun _ => True) r :=
  fun _ _ _ _ => trivial

theorem yields_pure {a : α} (h : p a) : Yields p (pure a : Reader α) := by
  rintro cs b rest ⟨⟩
  exact h

theorem yields_failure : Yields p (failure : Reader α) :=
  fun _ _ _ h => nomatch h

theorem Yields.bind (hr : Yields p r) (hf : ∀ a, p a → Yields q (f a)) : Yields q (r >>= f) := by
  intro cs b rest h
  cases hcs : r cs with
  | none =>
    rw [bind_of_none hcs] at h
    exact nomatch h
  | some x =>
    rw [bind_of_some hcs] at h
    exact hf x.1 (hr cs x.1 x.2 hcs) x.2 b rest h

/-- Of what is read first nothing has to be known. -/
theorem Yields.behind (hf : ∀ a, Yields q (f a)) : Yields q (r >>= f) :=
  (yields_any r).bind fun a _ => hf a

theorem Yields.orElse (hr : Yields p r) (hs : Yields p s) : Yields p (r <|> s) := by
  intro cs a rest h
  cases hcs : r cs with
  | none =>
    rw [orElse_of_none hcs] at h
    exact hs cs a rest h
  | some x =>
    rw [orElse_of_some hcs] at h
    exact hr cs a rest (hcs.trans h)

theorem Yields.many (h : Yields p r) : Yields (fun as => ∀ a ∈ as, p a) (many r) := by
  intro cs
  induction cs using many.induct r with
  | case1 cs hnone =>
    intro as rest hmany
    rw [many_of_none hnone] at hmany
    cases hmany
    exact List.forall_mem_nil _
  | case2 cs a rest hsome hlt ih =>
    intro as rest' hmany
    rw [Reader.many, hsome] at hmany
    simp only [if_pos hlt] at hmany
    obtain ⟨⟨others, rest''⟩, hothers, heq⟩ := Option.map_eq_some_iff.1 hmany
    cases heq
    exact List.forall_mem_cons.2 ⟨h cs a rest hsome, ih others rest'' hothers⟩
  | case3 cs a rest hsome hlt =>
    intro as rest' hmany
    rw [Reader.many, hsome] at hmany
    simp only [if_neg hlt] at hmany
    cases hmany
    exact List.forall_mem_nil _

theorem Yields.sepBy (h : Yields p r) (separator : Reader Unit) :
    Yields (fun as => ∀ a ∈ as, p a) (sepBy r separator) :=
  (h.bind fun _ ha => (Yields.behind fun _ => h).many.bind fun _ hs =>
    yields_pure (List.forall_mem_cons.2 ⟨ha, hs⟩)).orElse (yields_pure (List.forall_mem_nil _))

end Yields

/-! ## Values -/

/-- The integers of a value fit in signed words. -/
inductive InWords : Value → Prop
  | string (s : String) : InWords (.string s)
  | integer {i : Int} (h : i < signedLimit) : InWords (.integer i)
  | float (f : FloatValue) : InWords (.float f)
  | boolean (b : Bool) : InWords (.boolean b)
  | dateTime (text : String) : InWords (.dateTime text)
  | array {elements : List Value} (h : ∀ v ∈ elements, InWords v) : InWords (.array elements)
  | table {entries : Entries} (h : ∀ e ∈ entries, InWords e.2) : InWords (.table entries)

theorem inWords_signedWord (negative : Bool) (n : Nat) : Yields InWords (signedWord negative n) := by
  unfold signedWord
  split
  · split
    · exact yields_pure (.integer (by unfold signedLimit; omega))
    · exact yields_failure
  · split
    case isTrue h => exact yields_pure (.integer (by exact_mod_cast h))
    · exact yields_failure

theorem inWords_marked (mark : Char) (base : Nat) (isDigit : Char → Bool) :
    Yields InWords (marked mark base isDigit) :=
  .behind fun _ => .behind fun _ => .behind fun _ => inWords_signedWord false _

theorem inWords_integer : Yields InWords integer :=
  (inWords_marked _ _ _).orElse ((inWords_marked _ _ _).orElse ((inWords_marked _ _ _).orElse
    (.behind fun negative => .behind fun _ => inWords_signedWord negative _)))

theorem inWords_floatOf (negative : Bool) (digits : List Char) (exponent : Int) :
    Yields InWords (floatOf negative digits exponent) := by
  unfold floatOf
  split
  · split
    · exact yields_pure (.float _)
    · exact yields_failure
  · exact yields_pure (.float _)

theorem inWords_finiteFloat : Yields InWords finiteFloat := by
  refine .behind fun negative => .behind fun whole => .behind fun fraction => ?_
  cases fraction with
  | some places => exact .behind fun e => inWords_floatOf _ _ _
  | none => exact .behind fun e => inWords_floatOf _ _ _

theorem inWords_number : Yields InWords number := by
  have hdateTime : Yields InWords dateTime :=
    Yields.orElse (.behind fun _ => .behind fun _ => yields_pure (.dateTime _))
      (.behind fun _ => yields_pure (.dateTime _))
  have hspecial : Yields InWords specialFloat :=
    .behind fun _ => Yields.orElse (.behind fun _ => yields_pure (.float _))
      (.behind fun _ => yields_pure (.float _))
  exact hdateTime.orElse (inWords_finiteFloat.orElse (hspecial.orElse inWords_integer))

theorem inWords_scalar : Yields InWords scalar := by
  have hboolean : Yields InWords boolean :=
    Yields.orElse (.behind fun _ => yields_pure (.boolean _)) (.behind fun _ => yields_pure (.boolean _))
  exact Yields.orElse (.behind fun _ => yields_pure (.string _)) (hboolean.orElse inWords_number)

/-! ## Tables in braces -/

/-- The integers of an entry under construction fit. -/
inductive InlineInWords : InlineNode → Prop
  | value {v : Value} (h : InWords v) : InlineInWords (.value v)
  | dotted {entries : List (String × InlineNode)} (h : ∀ e ∈ entries, InlineInWords e.2) :
      InlineInWords (.dotted entries)

theorem InlineInWords.close {n : InlineNode} (h : InlineInWords n) : InWords n.close := by
  induction h with
  | value h => exact h
  | dotted h ih =>
    rw [InlineNode.close, InlineNode.closeEntries_eq]
    refine .table fun e he => ?_
    obtain ⟨e', he', rfl⟩ := List.mem_map.1 he
    exact ih e' he'

theorem mem_of_lookup {l : List (String × α)} {k : String} {a : α} (h : l.lookup k = some a) :
    (k, a) ∈ l := by
  obtain ⟨l₁, l₂, rfl, -⟩ := List.lookup_eq_some_iff.1 h
  exact List.mem_append_right _ List.mem_cons_self

theorem InlineInWords.place {v : Value} (hv : InWords v) : ∀ {path : List String}
    {entries out : List (String × InlineNode)}, (∀ e ∈ entries, InlineInWords e.2) →
    InlineNode.place v path entries = some out → ∀ e ∈ out, InlineInWords e.2
  | [], _, _, _, h => nomatch h
  | [k], entries, out, hentries, h => by
    rw [InlineNode.place] at h
    split at h
    · exact nomatch h
    · cases h
      exact List.forall_mem_append.2 ⟨hentries, List.forall_mem_singleton.2 (.value hv)⟩
  | k :: k' :: ks, entries, out, hentries, h => by
    rw [InlineNode.place.eq_def] at h
    dsimp only at h
    split at h
    · obtain ⟨inner, hinner, rfl⟩ := Option.map_eq_some_iff.1 h
      have hnew := InlineInWords.place hv (List.forall_mem_nil _) hinner
      exact List.forall_mem_append.2 ⟨hentries, List.forall_mem_singleton.2 (.dotted hnew)⟩
    · exact nomatch h
    case h_3 inner hlookup =>
      obtain ⟨inner', hinner, rfl⟩ := Option.map_eq_some_iff.1 h
      have hold : InlineInWords (.dotted inner) := hentries _ (mem_of_lookup hlookup)
      have hnew : InlineInWords (.dotted inner') := by
        cases hold with
        | dotted hold => exact .dotted (InlineInWords.place hv hold hinner)
      intro e he
      obtain ⟨e', he', rfl⟩ := List.mem_map.1 he
      split
      · exact hnew
      · exact hentries e' he'

theorem inWords_inlineEntries {settings : List (List String × Value)} {entries : Entries}
    (hs : ∀ s ∈ settings, InWords s.2) (h : inlineEntries settings = some entries) :
    ∀ e ∈ entries, InWords e.2 := by
  have hfold : ∀ {settings : List (List String × Value)} {nodes out : List (String × InlineNode)},
      (∀ s ∈ settings, InWords s.2) → (∀ e ∈ nodes, InlineInWords e.2) →
      settings.foldlM (fun entries s => InlineNode.place s.2 s.1 entries) nodes = some out →
      ∀ e ∈ out, InlineInWords e.2 := by
    intro settings
    induction settings with
    | nil =>
      rintro nodes out - hnodes ⟨⟩
      exact hnodes
    | cons s settings ih =>
      intro nodes out hs hnodes h
      rw [List.foldlM_cons] at h
      obtain ⟨nodes', hplace, hrest⟩ := Option.bind_eq_some_iff.1 h
      have hs' := List.forall_mem_cons.1 hs
      exact ih hs'.2 (InlineInWords.place hs'.1 hnodes hplace) hrest
  obtain ⟨nodes, hnodes, rfl⟩ := Option.map_eq_some_iff.1 h
  have hall := hfold hs (List.forall_mem_nil _) hnodes
  rw [InlineNode.closeEntries_eq]
  intro e he
  obtain ⟨e', he', rfl⟩ := List.mem_map.1 he
  exact (hall e' he').close

/-! ## Lines -/

theorem inWords_array {element : Reader Value} (h : Yields InWords element) :
    Yields InWords (array element) := by
  refine .behind fun _ => ?_
  refine (Yields.sepBy (.behind fun _ => h.bind fun _ hv => .behind fun _ => yields_pure hv) _).bind
    fun elements helements => ?_
  have hend : Yields InWords (do filler; char ']'; pure (.array elements)) :=
    .behind fun _ => .behind fun _ => yields_pure (.array helements)
  dsimp only
  split
  · exact hend
  · exact .behind fun _ => hend

theorem inWords_setting {value : Reader Value} (h : Yields InWords value) :
    Yields (fun s => InWords s.2) (setting value) :=
  .behind fun _ => .behind fun _ => .behind fun _ => h.bind fun _ hv => yields_pure hv

theorem inWords_inlineTable {value : Reader Value} (h : Yields InWords value) :
    Yields InWords (inlineTable value) := by
  have hone : Yields (fun s => InWords s.2) (do let s ← setting value; spaces; pure s) :=
    (inWords_setting h).bind fun _ hs => .behind fun _ => yields_pure hs
  refine .behind fun _ => (hone.sepBy _).bind fun settings hsettings => ?_
  refine .behind fun _ => .behind fun _ => ?_
  split
  case h_1 entries hentries => exact yields_pure (.table (inWords_inlineEntries hsettings hentries))
  case h_2 => exact yields_failure

theorem inWords_value : ∀ nesting, Yields InWords (value nesting)
  | 0 => inWords_scalar
  | nesting + 1 => inWords_scalar.orElse ((inWords_array (inWords_value nesting)).orElse
      (inWords_inlineTable (inWords_value nesting)))

/-- The integers of a line fit. -/
def Line.InWords : Line → Prop
  | .setting _ v => Toml.InWords v
  | _ => True

theorem inWords_line : Yields Line.InWords line := by
  refine .behind fun _ => ?_
  have hblank : Line.InWords .blank := trivial
  refine Yields.orElse (.behind fun _ => yields_pure hblank) ?_
  refine Yields.orElse (.behind fun _ => .behind fun _ => yields_pure hblank) ?_
  refine Yields.orElse (.behind fun _ => .behind fun path => .behind fun _ => .behind fun _ =>
    yields_pure (show Line.InWords (.element path) from trivial)) ?_
  refine Yields.orElse (.behind fun _ => .behind fun path => .behind fun _ => .behind fun _ =>
    yields_pure (show Line.InWords (.header path) from trivial)) ?_
  exact (inWords_setting (inWords_value nestingLimit)).bind fun s hs => .behind fun _ =>
    yields_pure (show Line.InWords (.setting s.1 s.2) from hs)

theorem inWords_lines {text : String} {ls : List Line} (h : lines text = some ls) :
    ∀ l ∈ ls, l.InWords := by
  rw [lines, readAll] at h
  split at h
  case h_1 ls' hread =>
    cases h
    exact (inWords_line.many.bind fun ls hls => .behind fun _ => yields_pure hls) _ _ _ hread
  case h_2 => exact nomatch h

/-! ## Tables of a document -/

/-- The integers of an entry under construction fit. -/
inductive NodeInWords : Node → Prop
  | value {v : Value} (h : InWords v) : NodeInWords (.value v)
  | table (origin : Origin) {entries : Nodes} (h : ∀ e ∈ entries, NodeInWords e.2) :
      NodeInWords (.table origin entries)
  | tables {elements : List Nodes} (h : ∀ es ∈ elements, ∀ e ∈ es, NodeInWords e.2) :
      NodeInWords (.tables elements)

/-- The integers of a table under construction fit. -/
def NodesInWords (entries : Nodes) : Prop :=
  ∀ e ∈ entries, NodeInWords e.2

theorem nodesInWords_nil : NodesInWords [] :=
  List.forall_mem_nil _

section Nodes

variable {entries inner out : Nodes} {name : String} {n : Node}

theorem NodesInWords.lookup (h : NodesInWords entries) (hn : entries.lookup name = some n) :
    NodeInWords n :=
  h _ (mem_of_lookup hn)

theorem NodesInWords.concat (h : NodesInWords entries) (hn : NodeInWords n) :
    NodesInWords (entries ++ [(name, n)]) :=
  List.forall_mem_append.2 ⟨h, List.forall_mem_singleton.2 hn⟩

theorem NodesInWords.replace (h : NodesInWords entries) (hn : NodeInWords n) :
    NodesInWords (entries.replace name n) := by
  intro e he
  obtain ⟨e', he', rfl⟩ := List.mem_map.1 he
  split
  · exact hn
  · exact h e' he'

theorem NodesInWords.erase (h : NodesInWords entries) : NodesInWords (entries.erase name) :=
  fun e he => h e (List.mem_filter.1 he).1

theorem NodesInWords.add (h : NodesInWords entries) (hn : NodeInWords n)
    (hadd : entries.add name n = some out) : NodesInWords out := by
  unfold Nodes.add at hadd
  split at hadd
  · exact nomatch hadd
  · cases hadd
    exact h.concat hn

theorem NodesInWords.ofTable {origin : Origin} (h : NodeInWords (.table origin inner)) :
    NodesInWords inner := by
  cases h with
  | table _ h => exact h

theorem NodesInWords.ofTables {elements : List Nodes} (h : NodeInWords (.tables elements)) :
    ∀ es ∈ elements, NodesInWords es := by
  cases h with
  | tables h => exact h

/-- **What a path changes is changed at its end**, and the tables on the way only hold it. -/
theorem NodesInWords.descend {dotted : Bool} {change : Origin → Nodes → Option Nodes}
    (hchange : ∀ origin inner out, NodesInWords inner → change origin inner = some out →
      NodesInWords out) :
    ∀ {path : List String} {origin : Origin} {entries out : Nodes}, NodesInWords entries →
      Nodes.descend dotted change path origin entries = some out → NodesInWords out
  | [], origin, entries, out, h, hd => hchange origin entries out h hd
  | name :: path, origin, entries, out, h, hd => by
    rw [Nodes.descend] at hd
    split at hd
    · obtain ⟨inner, hinner, rfl⟩ := Option.map_eq_some_iff.1 hd
      exact h.concat (.table _ (NodesInWords.descend hchange nodesInWords_nil hinner))
    · exact nomatch hd
    case h_3 elements hlookup =>
      have helements := NodesInWords.ofTables (h.lookup hlookup)
      split at hd
      · exact nomatch hd
      case h_2 last hlast =>
        obtain ⟨inner, hinner, rfl⟩ := Option.map_eq_some_iff.1 hd
        have hold := helements _ (List.mem_of_getLast? hlast)
        have hnew := NodesInWords.descend hchange hold hinner
        refine h.replace (.tables (List.forall_mem_append.2 ⟨fun es hes => ?_,
          List.forall_mem_singleton.2 hnew⟩))
        exact helements es (List.dropLast_subset _ hes)
    case h_4 origin inner hlookup =>
      split at hd
      · exact nomatch hd
      · obtain ⟨inner', hinner, rfl⟩ := Option.map_eq_some_iff.1 hd
        have hold := NodesInWords.ofTable (h.lookup hlookup)
        exact h.replace (.table origin (NodesInWords.descend hchange hold hinner))

theorem NodesInWords.tableAt : ∀ {path : List String} {entries : Nodes}, NodesInWords entries →
    NodesInWords (Draft.tableAt path entries)
  | [], _, h => h
  | name :: path, entries, h => by
    rw [Draft.tableAt]
    split
    case h_1 origin inner hlookup => exact (NodesInWords.ofTable (h.lookup hlookup)).tableAt
    case h_2 elements hlookup =>
      have helements := NodesInWords.ofTables (h.lookup hlookup)
      cases hlast : elements.getLast? with
      | none => exact NodesInWords.tableAt nodesInWords_nil
      | some last => exact (helements last (List.mem_of_getLast? hlast)).tableAt
    case h_3 => exact nodesInWords_nil

/-! ## Documents -/

/-- The integers of a document under construction fit. -/
structure DraftInWords (d : Draft) : Prop where
  closed : NodesInWords d.closed
  entries : NodesInWords d.entries

theorem DraftInWords.closeTable {d : Draft} (h : DraftInWords d) (hclose : d.closeTable = some out) :
    NodesInWords out := by
  unfold Draft.closeTable at hclose
  split at hclose
  · cases hclose
    exact h.entries
  · refine NodesInWords.descend (fun origin inner out hinner hadd => ?_) h.closed hclose
    exact hinner.add (.table _ h.entries) hadd
  · refine NodesInWords.descend (fun origin inner out hinner hadd => ?_) h.closed hclose
    split at hadd
    · cases hadd
      exact hinner.concat (.tables (List.forall_mem_singleton.2 h.entries))
    case h_2 elements hlookup =>
      cases hadd
      have helements := NodesInWords.ofTables (hinner.lookup hlookup)
      exact hinner.replace (.tables (List.forall_mem_append.2 ⟨helements,
        List.forall_mem_singleton.2 h.entries⟩))
    · exact nomatch hadd

theorem NodesInWords.openTable {parent : List String} {d : Draft} (h : NodesInWords entries)
    (hopen : Draft.openTable entries parent name = some d) : DraftInWords d := by
  obtain ⟨implied, himplied, hrest⟩ := Option.bind_eq_some_iff.1 hopen
  obtain ⟨closed, hclosed, heq⟩ := Option.bind_eq_some_iff.1 hrest
  cases heq
  refine ⟨NodesInWords.descend (fun _ inner out hinner herase => ?_) h hclosed, ?_⟩
  · cases herase
    exact hinner.erase
  · unfold Draft.implied at himplied
    split at himplied
    · cases himplied
      exact nodesInWords_nil
    case h_2 es hlookup =>
      cases himplied
      exact NodesInWords.ofTable (h.tableAt.lookup hlookup)
    · exact nomatch himplied

theorem NodesInWords.openElement {parent : List String} {d : Draft} (h : NodesInWords entries)
    (hopen : Draft.openElement entries parent name = some d) : DraftInWords d := by
  obtain ⟨closed, hclosed, heq⟩ := Option.bind_eq_some_iff.1 hopen
  cases heq
  refine ⟨NodesInWords.descend (fun _ inner out hinner hsame => ?_) h hclosed, nodesInWords_nil⟩
  have hout : out = inner := by
    split at hsame
    · exact (Option.some.inj hsame).symm
    · exact (Option.some.inj hsame).symm
    · exact nomatch hsame
  exact hout ▸ hinner

theorem DraftInWords.addSetting {d d' : Draft} {path : List String} {v : Value}
    (h : DraftInWords d) (hv : InWords v) (hadd : d.addSetting path v = some d') :
    DraftInWords d' := by
  unfold Draft.addSetting at hadd
  split at hadd
  · exact nomatch hadd
  · obtain ⟨entries, hentries, heq⟩ := Option.bind_eq_some_iff.1 hadd
    cases heq
    refine ⟨h.closed, NodesInWords.descend (fun origin inner out hinner hnew => ?_) h.entries
      hentries⟩
    split at hnew
    · exact nomatch hnew
    · exact hinner.add (.value hv) hnew

/-- **A line leaves the bound.** -/
theorem DraftInWords.addLine {d d' : Draft} {l : Line} (h : DraftInWords d) (hl : l.InWords)
    (hadd : d.addLine l = some d') : DraftInWords d' := by
  cases l with
  | blank =>
    cases hadd
    exact h
  | setting path v => exact h.addSetting hl hadd
  | header path =>
    unfold Draft.addLine at hadd
    dsimp only at hadd
    split at hadd
    · exact nomatch hadd
    · obtain ⟨closed, hclosed, hopen⟩ := Option.bind_eq_some_iff.1 hadd
      exact (h.closeTable hclosed).openTable hopen
  | element path =>
    unfold Draft.addLine at hadd
    dsimp only at hadd
    split at hadd
    · exact nomatch hadd
    · obtain ⟨closed, hclosed, hopen⟩ := Option.bind_eq_some_iff.1 hadd
      exact (h.closeTable hclosed).openElement hopen

theorem DraftInWords.addLines : ∀ {ls : List Line} {d d' : Draft}, DraftInWords d →
    (∀ l ∈ ls, l.InWords) → ls.foldlM Draft.addLine d = some d' → DraftInWords d'
  | [], d, d', h, _, hadd => by
    cases hadd
    exact h
  | l :: ls, d, d', h, hls, hadd => by
    rw [List.foldlM_cons] at hadd
    obtain ⟨d₁, hfirst, hrest⟩ := Option.bind_eq_some_iff.1 hadd
    have hls' := List.forall_mem_cons.1 hls
    exact (h.addLine hls'.1 hfirst).addLines hls'.2 hrest

theorem NodeInWords.close (h : NodeInWords n) : InWords n.close := by
  have htable : ∀ {es : Nodes}, (∀ e ∈ es, InWords e.2.close) →
      InWords (.table (Node.closeEntries es)) := by
    intro es hes
    rw [Node.closeEntries_eq]
    refine .table fun e he => ?_
    obtain ⟨e', he', rfl⟩ := List.mem_map.1 he
    exact hes e' he'
  induction h with
  | value h => exact h
  | table origin h ih => exact htable ih
  | tables h ih =>
    rw [Node.close, Node.closeTables_eq]
    refine .array fun v hv => ?_
    obtain ⟨es, hes, rfl⟩ := List.mem_map.1 hv
    exact htable (ih es hes)

end Nodes

/-- **The integers of a document fit in signed words.** -/
theorem inWords_parse {text : String} {entries : Entries} (h : parse text = some entries) :
    ∀ e ∈ entries, InWords e.2 := by
  obtain ⟨ls, hls, hrest⟩ := Option.bind_eq_some_iff.1 h
  obtain ⟨draft, hdraft, hrest⟩ := Option.bind_eq_some_iff.1 hrest
  obtain ⟨nodes, hnodes, heq⟩ := Option.bind_eq_some_iff.1 hrest
  cases heq
  have hstart : DraftInWords Draft.empty := ⟨nodesInWords_nil, nodesInWords_nil⟩
  have hall := (hstart.addLines (inWords_lines hls) hdraft).closeTable hnodes
  rw [Node.closeEntries_eq]
  intro e he
  obtain ⟨e', he', rfl⟩ := List.mem_map.1 he
  exact (hall e' he').close

end ConnPool.Toml
