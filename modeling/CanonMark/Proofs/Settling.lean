import CanonMark.Proofs.Markdown.Rows
import CanonMark.Proofs.Outline

/-! # Formatting again

A document settles if its texts, targets and infos are read back as they were written, wherever the
lines end. A line that ends within a title makes another title of it. Main statement: where none
does, what such a document is written as is laid out as the document is, at every width, and so
formatting it again changes nothing.
-/
namespace CanonMark

open Layout (Flow Margin Renderable Quotable Listable RowShape TableShape alignmentOf
  columnWidths rowTexts literals trimFlatten fenceWidth inlineTokens paragraph quoteChild quoteChildren
  listItem itemRest listItems compileCell compileRow compileRows writeTable)
open Markdown

mutual
/-- Whether a block is read back as one with the same markup, at every width and behind every
margin. -/
def settles : Node → Bool
  | .mk (.heading _) _ cs => readable (trimFlatten (literals cs))
  | .mk (.codeBlock _ _ info) _ _ => Text.trim (Text.decode (trimSpacing info)) == info
  | .mk (.table _) _ [.mk .tableHead _ [header], .mk .tableBody _ rows] =>
    decide (SteadyRow header ∧ ∀ row ∈ rows, SteadyRow row)
  | .mk .paragraph _ cs => decide (SteadyRun cs)
  | .mk .quote _ ns => settlesAll ns
  | .mk (.list _) _ items => settlesAll items
  | .mk .item _ ns => settlesAll ns
  | _ => false

def settlesAll : List Node → Bool
  | [] => true
  | n :: ns => settles n && settlesAll ns
end

theorem settlesAll_iff {ns : List Node} : settlesAll ns = true ↔ ∀ n ∈ ns, settles n = true := by
  induction ns with
  | nil => simp [settlesAll]
  | cons n ns ih => simp [settlesAll, ih]

/-- A document of which every block settles. -/
def Settled (root : Node) : Prop := settlesAll root.children = true

instance (root : Node) : Decidable (Settled root) :=
  inferInstanceAs (Decidable (settlesAll root.children = true))

def BlocksAlike (m n : Node) : Prop := ∀ cols, Layout.block cols m = Layout.block cols n

/-- A block that is one node, whatever stands before it, and this node is related to another one as
long as no line ends within a title. -/
def Returns (R : Node → Node → Prop) (n : Node) (tight : Bool) (b : Block) : Prop :=
  ∃ m, (∀ cs, blockNodes tight cs b = cs ++ [m]) ∧ (wholeTitles m = true → R m n)

theorem returns_all {R : Node → Node → Prop} {cols : Nat} {tight : Bool} {ns : List Node}
    {bs : List Block} (hs : ShowsAll cols ns bs)
    (h : ∀ n ∈ ns, ∀ b, Shows cols n b → Returns R n tight b) :
    ∃ ms, (∀ cs, blocksNodes tight cs bs = cs ++ ms) ∧
      (allWholeTitles ms = true → List.Forall₂ R ms ns) := by
  induction ns generalizing bs with
  | nil =>
    cases hs
    exact ⟨[], fun cs => (List.append_nil cs).symm, fun _ => .nil⟩
  | cons n ns ih =>
    cases hs with
    | @cons _ _ b bs hb hbs =>
      obtain ⟨m, hnode, hm⟩ := h n (by simp) b hb
      obtain ⟨ms, hnodes, hms⟩ := ih hbs fun k hk => h k (by simp [hk])
      refine ⟨m :: ms, fun cs => ?_, fun hwhole => ?_⟩
      · rw [blocksNodes, hnode, hnodes, List.append_assoc]
        rfl
      · obtain ⟨hone, hrest⟩ := Bool.and_eq_true_iff.mp hwhole
        exact .cons (hm hone) (hms hrest)

theorem paragraph_congr {ms ns : List Node} (h : inlineTokens ms = inlineTokens ns) (w : Flow) :
    paragraph w ms = paragraph w ns := by
  rw [paragraph, paragraph, h]

def QuotedAlike (m n : Node) : Prop := m.kind = n.kind ∧ ∀ q, quoteChild q m = quoteChild q n

theorem quoteChildren_alike {ms ns : List Node} (h : List.Forall₂ QuotedAlike ms ns) (q : Flow)
    (first : Bool) : quoteChildren q first ms = quoteChildren q first ns := by
  induction h generalizing q first with
  | nil => rfl
  | cons hone _ ih => simp only [quoteChildren, hone.2, ih]

theorem quotable_returns {cols : Nat} {n : Node} (h : Quotable n) (hn : settles n = true) :
    ∀ b, Shows cols n b → Returns QuotedAlike n false b := by
  induction h with
  | @paragraph l cs hcs =>
    intro b hb
    cases hb with
    | paragraph _ hsound hlines =>
      have hsteady : SteadyRun cs := of_decide_eq_true hn
      refine ⟨_, fun _ => rfl, fun hwhole => ⟨rfl, ?_⟩⟩
      exact paragraph_congr (hsteady.reads_back hcs hlines (children_whole hwhole))
  | @quote l ns hns ih =>
    intro b hb
    cases hb with
    | quote _ hall =>
      have hchildren := settlesAll_iff.mp hn
      obtain ⟨ms, hnodes, hms⟩ := returns_all hall fun k hk => ih k hk (hchildren k hk)
      refine ⟨_, fun _ => rfl, fun hwhole => ⟨rfl, fun q => ?_⟩⟩
      rw [hnodes, List.nil_append] at hwhole ⊢
      cases hms (children_whole hwhole) with
      | nil => rfl
      | cons hone hrest =>
        have hquote := quoteChildren_alike (.cons hone hrest) (q.nested Layout.quoteMargin) true
        simp only [Node.branch, quoteChild, hquote]

def ItemsAlike (m n : Node) : Prop := ∀ w marker, listItem w marker m = listItem w marker n

theorem listItems_alike {ms ns : List Node} (h : List.Forall₂ ItemsAlike ms ns) (w : Flow)
    (ordered : Bool) (index : Nat) :
    listItems w ordered index ms = listItems w ordered index ns := by
  induction h generalizing index with
  | nil => rfl
  | cons hone _ ih => rw [listItems, listItems, hone, ih]

theorem item_alike {p : Text} {ms cs : List Node} (htokens : inlineTokens ms = inlineTokens cs)
    {rest rest' : List Node} (hrest : ∀ w, itemRest w rest = itemRest w rest') (l l' p' : Text) :
    ItemsAlike (.mk .item l (.mk .paragraph p ms :: rest))
      (.mk .item l' (.mk .paragraph p' cs :: rest')) := by
  intro w marker
  simp only [listItem, paragraph_congr htokens, hrest]

theorem item_paragraph {cols : Nat} {margin : Margin} {next : Option Text} {cs : List Node}
    {content : Content} (hsound : SoundRun cols margin next cs)
    (hlines : Spreads ((Layout.cut cols margin (Layout.runTokens cs)).map Layout.lineBody) content)
    (rest : List Node) (hrest : ∀ n ∈ rest, n.kind.isInline = false) :
    wrapInlineRuns (contentNodes content.trimEnd ++ rest) =
      .branch .paragraph (contentNodes content.trimEnd) :: rest :=
  wrapInlineRuns_run (contentNodes_inline content.trimEnd) (run_nodes_ne_nil hsound hlines) rest hrest

theorem listable_returns {cols : Nat} {n : Node} (h : Listable n) (hn : settles n = true) :
    ∀ b, Shows cols n b → Returns ItemsAlike n true b := by
  induction h with
  | @plain l p cs hcs =>
    intro b hb
    cases hb with
    | item _ hall =>
      cases hall with
      | cons hp hnil =>
        cases hnil
        cases hp with
        | @paragraph _ margin next _ content hsound hlines =>
          have hsettles := settlesAll_iff.mp hn (.mk .paragraph p cs) (by simp)
          have hsteady : SteadyRun cs := of_decide_eq_true hsettles
          have hwrap := item_paragraph hsound hlines [] (by simp)
          rw [List.append_nil] at hwrap
          refine ⟨_, fun _ => rfl, ?_⟩
          change wholeTitles (.branch .item (wrapInlineRuns (contentNodes _))) = true →
            ItemsAlike (.branch .item (wrapInlineRuns (contentNodes _))) _
          rw [hwrap]
          intro hwhole
          obtain ⟨hparagraph, -⟩ := Bool.and_eq_true_iff.mp (children_whole hwhole)
          have htokens := hsteady.reads_back hcs hlines (children_whole hparagraph)
          exact item_alike htokens (fun _ => rfl) [] l p
  | @nested l p o m cs inner hcs hinner ih =>
    intro b hb
    cases hb with
    | item _ hall =>
      cases hall with
      | cons hp hrest =>
        cases hrest with
        | cons hlist hnil =>
          cases hnil
          cases hp with
          | @paragraph _ margin next _ content hsound hlines =>
            cases hlist with
            | @list _ _ _ bs hbs =>
              have hparts := settlesAll_iff.mp hn
              have hsettles := hparts (.mk .paragraph p cs) (by simp)
              have hsteady : SteadyRun cs := of_decide_eq_true hsettles
              have hitems := settlesAll_iff.mp (hparts (.mk (.list o) m inner) (by simp))
              obtain ⟨ms, hnodes, hms⟩ := returns_all hbs fun k hk => ih k hk (hitems k hk)
              have hwrap := item_paragraph hsound hlines
                [.branch (.list o) (blocksNodes true [] bs)]
                (by simp [Node.branch, Node.kind, Kind.isInline])
              refine ⟨_, fun _ => rfl, ?_⟩
              change wholeTitles (.branch .item (wrapInlineRuns (contentNodes _ ++ [_]))) = true →
                ItemsAlike (.branch .item (wrapInlineRuns (contentNodes _ ++ [_]))) _
              rw [hwrap, hnodes, List.nil_append]
              intro hwhole
              obtain ⟨hparagraph, hrest⟩ := Bool.and_eq_true_iff.mp (children_whole hwhole)
              obtain ⟨hlist, -⟩ := Bool.and_eq_true_iff.mp hrest
              have htokens := hsteady.reads_back hcs hlines (children_whole hparagraph)
              have hitems := hms (children_whole hlist)
              have hlists : ∀ w, itemRest w [.branch (.list o) ms] =
                  itemRest w [.mk (.list o) m inner] := fun w => listItems_alike hitems w o 0
              exact item_alike htokens hlists [] l p

theorem mapM_compileCell_congr {ms ns : List Node}
    (h : List.Forall₂ (fun m n => compileCell m = compileCell n) ms ns) :
    ms.mapM compileCell = ns.mapM compileCell := by
  induction h with
  | nil => rfl
  | cons hone _ ih => rw [List.mapM_cons, List.mapM_cons, hone, ih]

def RowsAlike (m n : Node) : Prop :=
  m.kind = .tableRow ∧ n.kind = .tableRow ∧
    List.Forall₂ (fun c d => compileCell c = compileCell d) m.children n.children

theorem compileRow_alike {m n : Node} (h : RowsAlike m n) (columns index : Nat) :
    compileRow columns index m = compileRow columns index n := by
  obtain ⟨k, l, cs⟩ := m
  obtain ⟨k', l', ds⟩ := n
  obtain ⟨hk, hk', h⟩ := h
  obtain rfl : k = .tableRow := hk
  obtain rfl : k' = .tableRow := hk'
  have hcells : List.Forall₂ (fun c d => compileCell c = compileCell d) cs ds := h
  have hlength : cs.length = ds.length := hcells.length_eq
  rw [compileRow, compileRow, hlength, mapM_compileCell_congr hcells]

theorem compileRows_alike {ms ns : List Node} (h : List.Forall₂ RowsAlike ms ns)
    (columns index : Nat) : compileRows columns index ms = compileRows columns index ns := by
  induction h generalizing index with
  | nil => rfl
  | cons hone _ ih => rw [compileRows, compileRows, compileRow_alike hone, ih]

theorem writeTable_congr {a b : List Alignment} {columns : Nat}
    (h : ∀ column < columns, alignmentOf a column = alignmentOf b column) (header : Layout.Row)
    (rows : List Layout.Row) : writeTable a columns header rows = writeTable b columns header rows := by
  have hwidths : (List.range columns).map (Layout.columnWidth a (header :: rows)) =
      (List.range columns).map (Layout.columnWidth b (header :: rows)) := by
    refine List.map_congr_left fun column hcolumn => ?_
    simp only [Layout.columnWidth, h column (List.mem_range.mp hcolumn)]
  have hdelimiters : ∀ widths : List Nat, widths.length = columns →
      Layout.delimiterRow a widths = Layout.delimiterRow b widths := by
    intro widths hlength
    rw [Layout.delimiterRow, Layout.delimiterRow]
    refine congrArg (· ++ _) (List.flatMap_congr fun pair hpair => ?_)
    obtain ⟨columnWidth, column⟩ := pair
    have hlt : column < widths.length + 0 := List.snd_lt_of_mem_zipIdx hpair
    have hcolumn := h column (by omega)
    simp only [hcolumn]
  simp only [writeTable, hwidths]
  rw [hdelimiters _ (by simp)]

theorem table_alike {a b : List Alignment} {l l' p p' q q' : Text} {header header' : Node}
    {rows rows' : List Node} (hne : header'.children ≠ []) (hrows : rows' ≠ [])
    (hheader : RowsAlike header header') (hbody : List.Forall₂ RowsAlike rows rows')
    (halign : ∀ column < header'.children.length, alignmentOf a column = alignmentOf b column) :
    Layout.table (.mk (.table a) l [.mk .tableHead p [header], .mk .tableBody q rows]) =
      Layout.table (.mk (.table b) l' [.mk .tableHead p' [header'], .mk .tableBody q' rows']) := by
  have hlength : header.children.length = header'.children.length := hheader.2.2.length_eq
  have hcells : header.children ≠ [] := by
    rw [← List.length_pos_iff, hlength]
    exact List.length_pos_iff.mpr hne
  have hbodies : rows ≠ [] := by
    rw [← List.length_pos_iff, hbody.length_eq]
    exact List.length_pos_iff.mpr hrows
  have hparts := Layout.tableParts_ok.mpr ⟨p, q, rfl, hheader.1, hcells, hbodies⟩
  have hparts' := Layout.tableParts_ok.mpr ⟨p', q', rfl, hheader.2.1, hne, hrows⟩
  have hwrite : writeTable a header'.children.length = writeTable b header'.children.length := by
    funext header rows
    exact writeTable_congr halign header rows
  change (Layout.tableParts [.mk .tableHead p [header], .mk .tableBody q rows] >>= _) =
    (Layout.tableParts [.mk .tableHead p' [header'], .mk .tableBody q' rows'] >>= _)
  rw [hparts, hparts']
  change (compileRow header.children.length 0 header >>= fun row =>
      compileRows header.children.length 1 rows >>= fun body =>
        .ok (writeTable a header.children.length row body)) =
    (compileRow header'.children.length 0 header' >>= fun row =>
      compileRows header'.children.length 1 rows' >>= fun body =>
        .ok (writeTable b header'.children.length row body))
  rw [hlength, compileRow_alike hheader, compileRows_alike hbody, hwrite]

theorem forall₂_whole {R : Node → Node → Prop} {ms ns : List Node}
    (h : List.Forall₂ (fun m n => wholeTitles m = true → R m n) ms ns)
    (hwhole : allWholeTitles ms = true) : List.Forall₂ R ms ns := by
  induction h with
  | nil => exact .nil
  | cons hone _ ih =>
    obtain ⟨hm, hms⟩ := Bool.and_eq_true_iff.mp hwhole
    exact .cons (hone hm) (ih hms)

theorem rowsAlike_shown {columns : Nat} {row : Node} (hshape : RowShape columns row)
    (h : SteadyRow row) {widths : List Nat} (hlen : widths.length = columns)
    (hwhole : wholeTitles (.branch .tableRow ((shownRow widths row).map cellNode)) = true) :
    RowsAlike (.branch .tableRow ((shownRow widths row).map cellNode)) row := by
  refine ⟨rfl, ?_, forall₂_whole (row_reads_back hshape h hlen) (children_whole hwhole)⟩
  cases hshape
  rfl

theorem table_returns {cols : Nat} {alignments : List Alignment} (l : Text) {cs : List Node}
    (h : TableShape cs) (hn : settles (.mk (.table alignments) l cs) = true) (b : Block)
    (hb : Shows cols (.mk (.table alignments) l cs) b) :
    Returns BlocksAlike (.mk (.table alignments) l cs) false b := by
  cases h with
  | @mk a b columns header rows hpos hheader hne hrows =>
    obtain ⟨hsteady, hsteadies⟩ : SteadyRow header ∧ ∀ row ∈ rows, SteadyRow row :=
      of_decide_eq_true hn
    have hcount : header.children.length = columns := by
      cases hheader with
      | mk _ hlen _ => exact hlen
    cases hb with
    | @table _ _ _ _ _ _ widths hw =>
      have hwidths : widths.length = columns := by simp [hw, columnWidths, hcount]
      have hbody : List.Forall₂ (fun m n => wholeTitles m = true → RowsAlike m n)
          (rows.map fun row => Node.branch .tableRow ((shownRow widths row).map cellNode)) rows := by
        rw [List.forall₂_map_left_iff, List.forall₂_same]
        exact fun row hrow => rowsAlike_shown (hrows row hrow) (hsteadies row hrow) hwidths
      have halign : ∀ column < header.children.length,
          alignmentOf ((List.range header.children.length).map (alignmentOf alignments)) column =
            alignmentOf alignments column := by
        intro column hlt
        have hall := alignmentOf_range alignments header.children.length
        exact List.map_inj_left.mp hall column (List.mem_range.mpr hlt)
      refine ⟨_, fun _ => rfl, fun hwhole width => ?_⟩
      rw [List.map_map] at hwhole ⊢
      obtain ⟨hhead, htail⟩ := Bool.and_eq_true_iff.mp (children_whole hwhole)
      obtain ⟨hfirst, -⟩ := Bool.and_eq_true_iff.mp (children_whole hhead)
      obtain ⟨hrest, -⟩ := Bool.and_eq_true_iff.mp htail
      exact table_alike (List.length_pos_iff.mp (by omega)) hne
        (rowsAlike_shown hheader hsteady hwidths hfirst)
        (forall₂_whole hbody (children_whole hrest)) halign

theorem QuotedAlike.block {m n : Node} (h : QuotedAlike m n)
    (hn : n.kind = .paragraph ∨ n.kind = .quote) : BlocksAlike m n := by
  obtain ⟨k, l, cs⟩ := m
  obtain ⟨k', l', ds⟩ := n
  obtain ⟨hk, hchild⟩ := h
  obtain rfl : k = k' := hk
  intro cols
  have hflow := hchild (Flow.start cols ⟨[], []⟩)
  rcases hn with hn | hn
  · obtain rfl : k = .paragraph := hn
    simp only [quoteChild] at hflow
    simp only [Layout.block, hflow]
  · obtain rfl : k = .quote := hn
    simp only [Layout.block, hflow]

theorem codeBlock_fenceWidth (fenced : Bool) (length : Nat) (info code : Text) :
    Layout.codeBlock fenced length info code =
      List.replicate (fenceWidth fenced length) '\x60' ++ info ++ '\n' :: code ++
        List.replicate (fenceWidth fenced length) '\x60' ++ "\n\n".toList := rfl

theorem block_returns {cols : Nat} {n : Node} (h : Renderable n) (hn : settles n = true) :
    ∀ b, Shows cols n b → Returns BlocksAlike n false b := by
  intro b hb
  cases h with
  | @heading level l cs htexts =>
    cases hb
    obtain ⟨hall, htext⟩ := headingNodes_settle level hn rfl
    refine ⟨_, fun _ => rfl, fun _ width => ?_⟩
    change Layout.heading level _ = Layout.heading level cs
    rw [Layout.heading_eq level hall, Layout.heading_eq level htexts, Layout.headingLine, htext,
      Layout.headingLine]
  | @paragraph l cs hcs =>
    obtain ⟨m, hnode, hm⟩ := quotable_returns (.paragraph l hcs) hn b hb
    exact ⟨m, hnode, fun hwhole => (hm hwhole).block (.inl rfl)⟩
  | codeBlock fenced length info code cs =>
    cases hb
    have hinfo : Text.trim (Text.decode (trimSpacing info)) = info := by simpa [settles] using hn
    have hpos := Layout.fenceWidth_pos fenced length
    have hfence : fenceWidth true (fenceWidth fenced length) = fenceWidth fenced length := by
      rw [fenceWidth, if_pos (by simpa using hpos)]
    refine ⟨_, fun _ => rfl, fun _ width => ?_⟩
    rw [hinfo]
    change Except.ok (Layout.codeBlock true (fenceWidth fenced length) info code) =
      .ok (Layout.codeBlock fenced length info code)
    rw [codeBlock_fenceWidth, codeBlock_fenceWidth fenced, hfence]
  | @quote l cs hcs =>
    obtain ⟨m, hnode, hm⟩ := quotable_returns (.quote l hcs) hn b hb
    exact ⟨m, hnode, fun hwhole => (hm hwhole).block (.inr rfl)⟩
  | list ordered l hitems =>
    cases hb with
    | list _ _ hall =>
      have hchildren := settlesAll_iff.mp hn
      obtain ⟨ms, hnodes, hms⟩ :=
        returns_all hall fun i hi => listable_returns (hitems i hi) (hchildren i hi)
      refine ⟨_, fun _ => rfl, fun hwhole width => ?_⟩
      rw [hnodes, List.nil_append] at hwhole ⊢
      have hitems := hms (children_whole hwhole)
      simp only [Node.branch, Layout.block, listItems_alike hitems]
  | table alignments l hcs =>
    exact table_returns l hcs hn b hb

theorem blocks_congr {ms ns : List Node} (h : List.Forall₂ BlocksAlike ms ns) (cols : Nat) :
    Layout.blocks cols ms = Layout.blocks cols ns := by
  induction h with
  | nil => rfl
  | cons hone _ ih => rw [Layout.blocks, Layout.blocks, hone, ih]

/-- What a legible document that settles is written as is laid out as the document is, at every
width, if no line of it ends within a title. -/
theorem format_written {options : Layout.Options} {source t : Text}
    (hformat : format options source = .ok t) (hlegible : Legible options.cols (parse source))
    (hsettled : Settled (parse source)) (hwhole : wholeTitles (parse t) = true)
    (other : Layout.Options) : format other t = format other source := by
  have hkind := parse_kind source
  obtain ⟨hrenderable, rfl⟩ := format_lines hformat hlegible
  obtain ⟨bs, hshows, hblocks⟩ := blocks_document
    (fun n hn => ⟨hrenderable n hn, hlegible.parts n hn⟩) hlegible.parted
  have hsettles := settlesAll_iff.mp hsettled
  obtain ⟨ms, hnodes, hms⟩ :=
    returns_all hshows fun n hn => block_returns (hrenderable n hn) (hsettles n hn)
  rw [parse_of_blocks hblocks, hnodes, List.nil_append] at hwhole
  have halike := hms (children_whole hwhole)
  rw [format, parse_of_blocks hblocks, hnodes, List.nil_append, format]
  generalize parse source = root at hkind halike
  obtain ⟨k, l, cs⟩ := root
  obtain rfl : k = .document := hkind
  have hsame : Layout.blocks other.cols ms = Layout.blocks other.cols cs :=
    blocks_congr halike other.cols
  simp only [Node.branch, Layout.document, hsame]

/-- Formatting the canonical form of a legible document that settles changes nothing, if no line of
it ends within a title. -/
theorem format_settles {options : Layout.Options} {source t : Text}
    (hformat : format options source = .ok t) (hlegible : Legible options.cols (parse source))
    (hsettled : Settled (parse source)) (hwhole : wholeTitles (parse t) = true) :
    format options t = .ok t := by
  rw [format_written hformat hlegible hsettled hwhole options, hformat]

theorem format_settles_titledLink :
    format ⟨12⟩ "* _a_ [b](c 'd e')\n  1. \x60\x60f\x60\x60\n".toList =
        .ok "- *a* [b](c\n   \"d e\")\n   1. \x60f\x60\n".toList ∧
      Legible 12 (parse "* _a_ [b](c 'd e')\n  1. \x60\x60f\x60\x60\n".toList) ∧
      Settled (parse "* _a_ [b](c 'd e')\n  1. \x60\x60f\x60\x60\n".toList) ∧
      wholeTitles (parse "- *a* [b](c\n   \"d e\")\n   1. \x60f\x60\n".toList) = true ∧
      format ⟨12⟩ "- *a* [b](c\n   \"d e\")\n   1. \x60f\x60\n".toList =
        .ok "- *a* [b](c\n   \"d e\")\n   1. \x60f\x60\n".toList := by
  have hformat : format ⟨12⟩ "* _a_ [b](c 'd e')\n  1. \x60\x60f\x60\x60\n".toList =
      .ok "- *a* [b](c\n   \"d e\")\n   1. \x60f\x60\n".toList := by decide +kernel
  have hlegible : Legible 12 (parse "* _a_ [b](c 'd e')\n  1. \x60\x60f\x60\x60\n".toList) := by
    decide +kernel
  have hsettled : Settled (parse "* _a_ [b](c 'd e')\n  1. \x60\x60f\x60\x60\n".toList) := by
    decide +kernel
  have hwhole : wholeTitles (parse "- *a* [b](c\n   \"d e\")\n   1. \x60f\x60\n".toList) = true := by
    decide +kernel
  exact ⟨hformat, hlegible, hsettled, hwhole, format_settles hformat hlegible hsettled hwhole⟩

/-- Two neighbouring lists of the same kind are joined when they are formatted again. -/
theorem format_joins_lists :
    format ⟨80⟩ "1. a\n1) b\n".toList = .ok "1. a\n\n1. b\n".toList ∧
      format ⟨80⟩ "1. a\n\n1. b\n".toList = .ok "1. a\n2. b\n".toList := by
  constructor
  · decide +kernel
  · decide +kernel

/-- A title in which a line ends is parted from its destination when it is formatted again. -/
theorem format_moves_title :
    format ⟨12⟩ "[ab](c 'd efg')\n".toList = .ok "[ab](c \"d\nefg\")\n".toList ∧
      format ⟨12⟩ "[ab](c \"d\nefg\")\n".toList = .ok "[ab](c\n\"d\nefg\")\n".toList := by
  constructor
  · decide +kernel
  · decide +kernel

end CanonMark
