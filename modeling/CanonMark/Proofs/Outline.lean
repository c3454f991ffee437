import CanonMark.Format
import CanonMark.Proofs.Document.Reshaping
import CanonMark.Proofs.Markdown.Sequence

/-! # The outline of a document

The outline of a document is its blocks without their text: their kinds, how they are nested, and
the columns of tables with their alignments.
-/
namespace CanonMark

open Layout (Renderable Quotable Listable alignmentOf rowTexts)
open Markdown

def columnsOf : List Node → Nat
  | .mk _ _ (.mk _ _ cells :: _) :: _ => cells.length
  | _ => 0

mutual
/-- A block without its text. A column without an alignment of its own has none. -/
def outline : Node → Node
  | .mk (.heading level) _ _ => .branch (.heading level) []
  | .mk .paragraph _ _ => .branch .paragraph []
  | .mk (.codeBlock _ _ _) _ _ => .branch (.codeBlock true 0 []) []
  | .mk .tableCell _ _ => .branch .tableCell []
  | .mk (.table alignments) _ cs =>
    .branch (.table ((List.range (columnsOf cs)).map (alignmentOf alignments))) (outlines cs)
  | .mk k _ cs => .branch k (outlines cs)

def outlines : List Node → List Node
  | [] => []
  | n :: ns => outline n :: outlines ns
end

theorem outlines_eq_map (ns : List Node) : outlines ns = ns.map outline := by
  induction ns with
  | nil => rfl
  | cons n ns ih => rw [outlines, ih, List.map_cons]

theorem outlines_append (ns ms : List Node) : outlines (ns ++ ms) = outlines ns ++ outlines ms := by
  simp only [outlines_eq_map, List.map_append]

theorem trimEnd_begins {c : Char} (h : Text.isSpacing c = false) (t : Content) :
    ∃ rest, Content.trimEnd (.char c :: t) = .char c :: rest := by
  have hkeep : Symbol.isSpacing (.char c) = false := h
  rw [Content.trimEnd, List.reverse_cons, List.dropWhile_append]
  split
  · refine ⟨[], ?_⟩
    simp [hkeep]
  · exact ⟨(t.reverse.dropWhile Symbol.isSpacing).reverse, by simp⟩

theorem spreads_begins {t : Text} {ls : List Text} {content : Content} (h : Spreads (t :: ls) content)
    (ht : Calm t) : ∃ c rest, content.trimEnd = .char c :: rest := by
  obtain ⟨c, hc, hs⟩ := ht.visible
  obtain ⟨u, rfl⟩ : ∃ u, t = c :: u := by
    cases t with
    | nil => simp at hc
    | cons d u =>
      obtain rfl : d = c := by simpa using hc
      exact ⟨u, rfl⟩
  obtain ⟨rest, hcontent⟩ : ∃ rest, content = .char c :: rest := by
    cases h with
    | one => exact ⟨_, rfl⟩
    | more t b => exact ⟨_, rfl⟩
  rw [hcontent]
  obtain ⟨rest', hrest⟩ := trimEnd_begins hs rest
  exact ⟨c, rest', hrest⟩

theorem run_nodes_ne_nil {cols : Nat} {margin : Layout.Margin} {next : Option Text} {cs : List Node}
    {content : Content} (h : SoundRun cols margin next cs)
    (hs : Spreads ((Layout.cut cols margin (Layout.runTokens cs)).map Layout.lineBody) content) :
    contentNodes content.trimEnd ≠ [] := by
  have hcalm := h.coherent.calm
  cases hlines : (Layout.cut cols margin (Layout.runTokens cs)).map Layout.lineBody with
  | nil => exact absurd (List.map_eq_nil_iff.mp hlines) (Layout.cut_ne_nil h.tokens)
  | cons t ls =>
    rw [hlines] at hs hcalm
    obtain ⟨c, rest, hcontent⟩ := spreads_begins hs (hcalm t (by simp))
    rw [hcontent]
    exact spansNodes_ne_nil _ (.inl (plainSpans_ne_nil c rest))

/-- A block that is one node, whatever stands before it, with the outline of another node. -/
def Keeps (n : Node) (tight : Bool) (b : Block) : Prop :=
  ∃ m, (∀ cs, blockNodes tight cs b = cs ++ [m]) ∧ outline m = outline n

theorem keeps_all {cols : Nat} {tight : Bool} {ns : List Node} {bs : List Block}
    (hs : ShowsAll cols ns bs) (h : ∀ n ∈ ns, ∀ b, Shows cols n b → Keeps n tight b)
    (cs : List Node) : outlines (blocksNodes tight cs bs) = outlines cs ++ outlines ns := by
  induction ns generalizing bs cs with
  | nil =>
    cases hs
    simp [blocksNodes, outlines]
  | cons n ns ih =>
    cases hs with
    | @cons _ _ b bs hb hbs =>
      obtain ⟨m, hnodes, hm⟩ := h n (by simp) b hb
      rw [blocksNodes, hnodes, ih hbs fun k hk => h k (by simp [hk]), outlines_append]
      simp [outlines, hm]

theorem quotable_keeps {cols : Nat} {n : Node} (h : Quotable n) :
    ∀ b, Shows cols n b → Keeps n false b := by
  induction h with
  | paragraph l hcs =>
    intro b hb
    cases hb
    exact ⟨_, fun _ => rfl, rfl⟩
  | @quote l ns hns ih =>
    intro b hb
    cases hb with
    | quote _ hall =>
      refine ⟨_, fun _ => rfl, ?_⟩
      have hinner := keeps_all hall ih []
      change Node.branch .quote (outlines (blocksNodes false [] _)) = _
      rw [hinner]
      rfl

theorem listable_keeps {cols : Nat} {n : Node} (h : Listable n) :
    ∀ b, Shows cols n b → Keeps n true b := by
  induction h with
  | @plain l p cs hcs =>
    intro b hb
    cases hb with
    | item _ hall =>
      cases hall with
      | cons hp hnil =>
        cases hnil
        cases hp with
        | @paragraph _ margin next _ content hsound hspread =>
          have hne := run_nodes_ne_nil hsound hspread
          have hwrap := wrapInlineRuns_run (contentNodes_inline content.trimEnd) hne [] (by simp)
          rw [List.append_nil] at hwrap
          refine ⟨_, fun _ => rfl, ?_⟩
          change outline (.branch .item (wrapInlineRuns (contentNodes _))) = _
          rw [hwrap]
          rfl
  | @nested l p o m cs inner hcs hinner ih =>
    intro b hb
    cases hb with
    | item _ hall =>
      cases hall with
      | cons hp hrest =>
        cases hrest with
        | cons hlist hnil =>
          cases hnil
          cases hp with
          | @paragraph _ margin next _ content hsound hspread =>
            cases hlist with
            | @list _ _ _ bs hbs =>
              have hne := run_nodes_ne_nil hsound hspread
              have hwrap := wrapInlineRuns_run (contentNodes_inline content.trimEnd) hne
                [.branch (.list o) (blocksNodes true [] bs)]
                (by simp [Node.branch, Node.kind, Kind.isInline])
              have hitems := keeps_all hbs ih []
              refine ⟨_, fun _ => rfl, ?_⟩
              change outline (.branch .item (wrapInlineRuns (contentNodes _ ++ [_]))) = _
              rw [hwrap]
              change Node.branch .item [.branch .paragraph [],
                .branch (.list o) (outlines (blocksNodes true [] bs))] = _
              rw [hitems]
              rfl

theorem outline_row (l : Text) {cells : List Node}
    (h : ∀ cell ∈ cells, outline cell = .branch .tableCell []) :
    outline (.mk .tableRow l cells) =
      .branch .tableRow (List.replicate cells.length (.branch .tableCell [])) := by
  have hall : outlines cells = List.replicate cells.length (.branch .tableCell []) := by
    rw [outlines_eq_map]
    exact List.eq_replicate_iff.mpr ⟨by simp, by simpa using h⟩
  rw [← hall]
  rfl

theorem outline_rowShape {columns : Nat} {row : Node} (h : Layout.RowShape columns row) :
    outline row = .branch .tableRow (List.replicate columns (.branch .tableCell [])) := by
  cases h with
  | mk l hlen hcells =>
    rw [outline_row l, hlen]
    intro cell hcell
    cases hcells cell hcell
    rfl

theorem shownRow_length (widths : List Nat) (row : Node) :
    (shownRow widths row).length = widths.length := by
  simp only [shownRow, fitRow, List.length_append, List.length_take, List.length_replicate]
  omega

theorem outline_shownRow (widths : List Nat) (row : Node) :
    outline (.branch .tableRow ((shownRow widths row).map cellNode)) =
      .branch .tableRow (List.replicate widths.length (.branch .tableCell [])) := by
  rw [Node.branch, outline_row []]
  · simp [shownRow_length]
  · intro cell hcell
    obtain ⟨content, -, rfl⟩ := List.mem_map.mp hcell
    rfl

theorem alignmentOf_range (alignments : List Alignment) (columns : Nat) :
    (List.range columns).map (alignmentOf ((List.range columns).map (alignmentOf alignments))) =
      (List.range columns).map (alignmentOf alignments) := by
  refine List.map_congr_left fun column hcolumn => ?_
  have hlt : column < columns := List.mem_range.mp hcolumn
  simp [alignmentOf, hlt]

theorem outline_table (alignments : List Alignment) (l a b : Text) (header : Node)
    (rows : List Node) :
    outline (.mk (.table alignments) l [.mk .tableHead a [header], .mk .tableBody b rows]) =
      .branch (.table ((List.range header.children.length).map (alignmentOf alignments)))
        [.branch .tableHead [outline header], .branch .tableBody (rows.map outline)] := by
  obtain ⟨k, t, cells⟩ := header
  rw [← outlines_eq_map]
  rfl

theorem table_keeps {cols : Nat} {alignments : List Alignment} (l : Text) {cs : List Node}
    (h : Layout.TableShape cs) (b : Block) (hb : Shows cols (.mk (.table alignments) l cs) b) :
    Keeps (.mk (.table alignments) l cs) false b := by
  cases h with
  | @mk a b columns header rows _ hheader _ hrows =>
    cases hb with
    | @table _ _ _ _ _ _ widths hw =>
      have hcount : header.children.length = columns := by
        cases hheader with
        | mk _ hlen _ => exact hlen
      have hwidths : widths.length = columns := by simp [hw, Layout.columnWidths, hcount]
      have hbody : (rows.map fun row =>
          Node.branch .tableRow ((shownRow widths row).map cellNode)).map outline =
          rows.map outline := by
        rw [List.map_map]
        refine List.map_congr_left fun row hrow => ?_
        rw [Function.comp_apply, outline_shownRow, outline_rowShape (hrows row hrow), hwidths]
      have hchildren : (Node.branch .tableRow
          ((shownRow widths header).map cellNode)).children.length = columns := by
        change ((shownRow widths header).map cellNode).length = columns
        rw [List.length_map, shownRow_length, hwidths]
      refine ⟨_, fun _ => rfl, ?_⟩
      change outline (.mk (.table _) [] [.mk .tableHead [] [_], .mk .tableBody [] _]) = _
      rw [List.map_map, outline_table, outline_table, hchildren, hcount, alignmentOf_range,
        outline_shownRow, outline_rowShape hheader, hwidths]
      exact congrArg (fun body => Node.branch _ [_, .branch .tableBody body]) hbody

theorem block_keeps {cols : Nat} {n : Node} (h : Renderable n) :
    ∀ b, Shows cols n b → Keeps n false b := by
  intro b hb
  cases h with
  | heading level l _ =>
    cases hb
    exact ⟨_, fun _ => rfl, rfl⟩
  | paragraph l hcs => exact quotable_keeps (.paragraph l hcs) b hb
  | codeBlock fenced length info code cs =>
    cases hb
    exact ⟨_, fun _ => rfl, rfl⟩
  | quote l hns => exact quotable_keeps (.quote l hns) b hb
  | list ordered l hitems =>
    cases hb with
    | list _ _ hall =>
      have hinner := keeps_all hall (fun n hn => listable_keeps (hitems n hn)) []
      refine ⟨_, fun _ => rfl, ?_⟩
      change Node.branch (.list ordered) (outlines (blocksNodes true [] _)) = _
      rw [hinner]
      rfl
  | table alignments l hcs => exact table_keeps l hcs b hb

theorem outline_parse_document {cols : Nat} {cs : List Node}
    (h : ∀ c ∈ cs, Renderable c ∧ BlockSound cols c) (hparted : parted cs = true) (l : Text) :
    outline (parse (Layout.unlines (Layout.documentLines cols cs))) =
      outline (.mk .document l cs) := by
  obtain ⟨bs, hshows, hblocks⟩ := blocks_document h hparted
  have hall := keeps_all hshows (fun n hn => block_keeps (h n hn).1) []
  rw [parse_of_blocks hblocks]
  change Node.branch .document (outlines _) = _
  rw [hall]
  rfl

/-- A document of which every part is read back by itself, and no two neighbours are lists that
would be read as one. -/
@[mk_iff] structure Legible (cols : Nat) (root : Node) : Prop where
  parts : ∀ n ∈ root.children, BlockSound cols n
  parted : parted root.children = true

instance (cols : Nat) (root : Node) : Decidable (Legible cols root) :=
  decidable_of_iff _ (legible_iff cols root).symm

theorem BlockSound.closed {cols : Nat} {n : Node} (hr : Renderable n) (h : BlockSound cols n) :
    Layout.closed n = true := by
  cases hr with
  | codeBlock fenced length info code cs => exact (sound_single.mp h).2.1
  | _ => rfl

theorem format_lines {options : Layout.Options} {source t : Text}
    (hformat : format options source = .ok t) (hlegible : Legible options.cols (parse source)) :
    (∀ n ∈ (parse source).children, Renderable n) ∧
      t = Layout.unlines (Layout.documentLines options.cols (parse source).children) := by
  have hkind := parse_kind source
  rw [format] at hformat
  generalize parse source = root at hkind hlegible hformat
  obtain ⟨k, l, cs⟩ := root
  obtain rfl : k = .document := hkind
  have hrenderable : ∀ n ∈ cs, Renderable n := by
    cases Layout.acceptable_of_ok hformat with
    | document _ hcs => exact hcs
    | block hblock => cases hblock
  refine ⟨hrenderable, ?_⟩
  have hparts := hlegible.parts
  have hlines := Layout.document_eq_lines options l
    (fun n hn => ⟨hrenderable n hn, BlockSound.closed (hrenderable n hn) (hparts n hn)⟩)
    (fun n hn => block_begins (hrenderable n hn) (hparts n hn))
  rw [hlines] at hformat
  exact (Except.ok.inj hformat).symm

/-- Formatting keeps the outline of a legible document, at every width. -/
theorem format_keeps_outline {options : Layout.Options} {source t : Text}
    (hformat : format options source = .ok t) (hlegible : Legible options.cols (parse source)) :
    outline (parse t) = outline (parse source) := by
  have hkind := parse_kind source
  obtain ⟨hrenderable, rfl⟩ := format_lines hformat hlegible
  have hread := outline_parse_document
    (fun n hn => ⟨hrenderable n hn, hlegible.parts n hn⟩) hlegible.parted (parse source).literal
  rw [hread]
  generalize parse source = root at hkind
  obtain ⟨k, l, cs⟩ := root
  obtain rfl : k = .document := hkind
  rfl

theorem format_keeps_outline_nestedBlocks :
    format ⟨80⟩ "* a\n  1. b\n>c".toList = .ok "- a\n   1. b\n\n> c\n".toList ∧
      Legible 80 (parse "* a\n  1. b\n>c".toList) ∧
      outline (parse "- a\n   1. b\n\n> c\n".toList) = outline (parse "* a\n  1. b\n>c".toList) := by
  have hformat : format ⟨80⟩ "* a\n  1. b\n>c".toList = .ok "- a\n   1. b\n\n> c\n".toList := by
    decide +kernel
  have hlegible : Legible 80 (parse "* a\n  1. b\n>c".toList) := by decide +kernel
  exact ⟨hformat, hlegible, format_keeps_outline hformat hlegible⟩

/-- Two neighbouring lists of the same kind become one. -/
theorem format_merges_lists :
    format ⟨80⟩ "1. a\n1) b\n".toList = .ok "1. a\n\n1. b\n".toList ∧
      outline (parse "1. a\n\n1. b\n".toList) ≠ outline (parse "1. a\n1) b\n".toList) := by
  constructor
  · decide +kernel
  · decide +kernel

end CanonMark
