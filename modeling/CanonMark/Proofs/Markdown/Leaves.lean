import CanonMark.Proofs.Layout.Lines
import CanonMark.Proofs.Markdown.Reading

/-! # Headings, code and tables read back

These blocks are written line by line and stand in no container. A heading is read back from its one
line, code up to the first line that closes its fence, and a table from its delimiter row and the
rows behind it.
-/
namespace CanonMark.Markdown

open Cursor (indented)
open Layout (headingLine fenceWidth codeLines rowLine delimiterLine columnWidths tableLines
  alignmentOf delimiterCell writeCell)
open State (idle)

/-- A line that begins with none of the marks that are tried before headings. -/
structure Plain (t : Text) : Prop where
  flush : Flush t
  html : htmlEnd? t = none
  tag : opensBlockTag t = false
  line : Html.isTagLine t = false
  thematic : isThematicBreak t = false

theorem plain_of_head {c : Char} (t : Text) (hs : Text.isSpaceOrTab c = false) (hlt : c ≠ '<')
    (hb : (c == '*' || c == '-' || c == '_') = false) : Plain (c :: t) where
  flush := flush_cons t hs
  html := htmlEnd_of_head hlt
  tag := by simp [opensBlockTag, hlt]
  line := by simp [Html.isTagLine, hlt]
  thematic := by simp only [isThematicBreak, hb, Bool.false_and]

theorem runLength_replicate {c : Char} {t : Text} (ht : t.head? ≠ some c) (n : Nat) :
    Text.runLength c (List.replicate n c ++ t) = n := by
  have hall : ∀ d ∈ List.replicate n c, (d == c) = true := by
    intro d hd
    rw [List.eq_of_mem_replicate hd]
    exact beq_self_eq_true c
  have hnil : t.takeWhile (· == c) = [] := by
    cases t with
    | nil => rfl
    | cons d t =>
      have hd : d ≠ c := by simpa using ht
      simp [hd]
  rw [Text.runLength, List.takeWhile_append_of_pos hall, hnil, List.append_nil,
    List.length_replicate]

theorem readLeaf_heading {s : State} {level : Nat} (hlo : 1 ≤ level) (hhi : level ≤ 6) (text : Text)
    (following : List Line) :
    readLeaf s (indented 0 (headingLine level text) 0) ['\n'] following =
      (s.finishList.add (.heading level (headingContent ((headingLine level text).drop level))),
        following) := by
  obtain ⟨behind, hline, hbehind⟩ : ∃ behind, headingLine level text =
      List.replicate level '#' ++ behind ∧ behind.head?.all (· == ' ') = true := by
    refine ⟨_, rfl, ?_⟩
    split <;> rfl
  have hrun : Text.runLength '#' (headingLine level text) = level := by
    rw [hline]
    refine runLength_replicate (fun h => ?_) level
    rw [h] at hbehind
    cases hbehind
  have hlevel : headingLevel? (headingLine level text) = some level := by
    have hdrop : (headingLine level text).drop level = behind := by simp [hline]
    have hblank : behind.head?.all Text.isAsciiBlank = true := by
      cases behind with
      | nil => rfl
      | cons c behind =>
        obtain rfl : c = ' ' := by simpa using hbehind
        rfl
    simp [headingLevel?, hrun, hdrop, hblank, hlo, hhi]
  have hplain : Plain (headingLine level text) := by
    obtain ⟨k, rfl⟩ := Nat.exists_eq_add_of_le' hlo
    rw [hline, List.replicate_succ, List.cons_append]
    exact plain_of_head _ rfl (by decide) rfl
  simp only [readLeaf, indented_skip_four (e := 0) (by omega) hplain.flush, indented_zero_rest,
    hplain.html, hplain.tag, hplain.line, hplain.thematic, hlevel]
  rfl

/-- Whether a line of code would be read as the end of a fence of so many backticks. -/
def endsFence (width : Nat) (l : Text) : Bool :=
  let (indent, next) := (Cursor.ofText l).skip 4
  indent < 4 && closesFence '\x60' width next.rest

theorem fencedLines_cons (width : Nat) {line : Line} (h : line.ending ≠ []) (following : List Line) :
    fencedLines [] 0 '\x60' width (line :: following) =
      if endsFence width line.text then ([], following)
      else (line.text ++ literalEnd line.ending ++ (fencedLines [] 0 '\x60' width following).1,
        (fencedLines [] 0 '\x60' width following).2) := by
  have hskip : ∀ cur : Cursor, cur.skip 0 = (0, cur) := by
    intro cur
    simp [Cursor.skip]
  have hending : line.ending.isEmpty = false := by simpa using h
  rw [fencedLines]
  simp only [inside?, pass, Line.start, hskip, hending, Nat.sub_zero, Bool.and_false, Bool.or_false]
  rfl

theorem endsFence_fence {width : Nat} (hw : 0 < width) :
    endsFence width (List.replicate width '\x60') = true := by
  have hflush : Flush (List.replicate width '\x60') := by
    obtain ⟨k, rfl⟩ := Nat.exists_eq_add_of_le' hw
    exact flush_cons _ rfl
  have hrun := runLength_replicate (c := '\x60') (t := []) (by simp) width
  rw [List.append_nil] at hrun
  have hfour : (Cursor.ofText (List.replicate width '\x60')).skip 4 =
      (0, indented 0 (List.replicate width '\x60') 0) :=
    indented_skip_four (e := 0) (by omega) hflush 0
  simp [endsFence, hfour, indented_zero_rest, closesFence, hrun]

theorem fencedLines_eq {width : Nat} {ls : List Text} (h : ∀ l ∈ ls, endsFence width l = false)
    (hw : 0 < width) (rest : List Line) :
    fencedLines [] 0 '\x60' width
        (ls.map fullLine ++ fullLine (List.replicate width '\x60') :: rest) =
      (Layout.unlines ls, rest) := by
  have hfull : ∀ l, (fullLine l).ending ≠ [] := by simp [fullLine]
  induction ls with
  | nil =>
    rw [List.map_nil, List.nil_append, fencedLines_cons width (hfull _)]
    simp [fullLine, endsFence_fence hw]
  | cons l ls ih =>
    have hl : endsFence width (fullLine l).text = false := h l (by simp)
    rw [List.map_cons, List.cons_append, fencedLines_cons width (hfull _), hl,
      ih fun m hm => h m (by simp [hm])]
    simp [fullLine, literalEnd]

theorem fence?_replicate {width : Nat} (hw : 3 ≤ width) {info : Text} (hinfo : '\x60' ∉ info) :
    fence? (List.replicate width '\x60' ++ info) = some ('\x60', width) := by
  have hrun : Text.runLength '\x60' (List.replicate width '\x60' ++ info) = width := by
    refine runLength_replicate (fun hhead => hinfo ?_) width
    exact List.mem_of_mem_head? hhead
  obtain ⟨u, hu⟩ : ∃ u, List.replicate width '\x60' ++ info = '\x60' :: u := by
    obtain ⟨k, rfl⟩ := Nat.exists_eq_add_of_le' hw
    exact ⟨_, rfl⟩
  have hdrop : ('\x60' :: u).drop width = info := by simp [← hu]
  have hshort : ¬ width < 3 := by omega
  have hnone : info.any (· == '\x60') = false := by
    simp only [List.any_eq_false, beq_iff_eq]
    rintro c hc rfl
    exact hinfo hc
  rw [hu] at hrun ⊢
  simp only [fence?, hrun, if_neg hshort, hdrop, hnone]
  rfl

theorem readLeaf_code {s : State} (hs : s.finishList.spine = []) {width : Nat} (hw : 3 ≤ width)
    {info : Text} (hinfo : '\x60' ∉ info) {ls : List Text}
    (h : ∀ l ∈ ls, endsFence width l = false) (rest : List Line) :
    readLeaf s (indented 0 (List.replicate width '\x60' ++ info) 0) ['\n']
        (ls.map fullLine ++ fullLine (List.replicate width '\x60') :: rest) =
      (s.finishList.add (.fenced width (Text.trim (Text.decode (trimSpacing info)))
        (Layout.unlines ls)), rest) := by
  have hfence := fence?_replicate hw hinfo
  obtain ⟨u, hu⟩ : ∃ u, List.replicate width '\x60' ++ info = '\x60' :: u := by
    obtain ⟨k, rfl⟩ := Nat.exists_eq_add_of_le' hw
    exact ⟨_, rfl⟩
  have hdrop : ('\x60' :: u).drop width = info := by simp [← hu]
  have hplain : Plain ('\x60' :: u) := plain_of_head u rfl (by decide) rfl
  have hlevel : headingLevel? ('\x60' :: u) = none := by
    simp [headingLevel?, Text.runLength]
  rw [hu] at hfence ⊢
  simp only [readLeaf, indented_skip_four (e := 0) (by omega) hplain.flush, indented_zero_rest,
    hplain.html, hplain.tag, hplain.line, hplain.thematic, hlevel, hfence, readFenced, hs, hdrop,
    fencedLines_eq h (show 0 < width by omega) rest]
  rfl

def prepend (t : Text) : List Text → List Text
  | [] => [t]
  | piece :: pieces => (t ++ piece) :: pieces

theorem prepend_append (s t : Text) (ps : List Text) :
    prepend (s ++ t) ps = prepend s (prepend t ps) := by
  cases ps <;> simp [prepend]

theorem prepend_nil {ps : List Text} (h : ps ≠ []) : prepend [] ps = ps := by
  cases ps with
  | nil => exact absurd rfl h
  | cons p ps => rfl

theorem extendFirst_eq (c : Char) (ps : List Text) : extendFirst c ps = prepend [c] ps := by
  cases ps <;> rfl

theorem extendFirst_ne_nil (c : Char) (ps : List Text) : extendFirst c ps ≠ [] := by
  cases ps <;> simp [extendFirst]

theorem extendFirst_length {c : Char} {ps : List Text} (h : ps ≠ []) :
    (extendFirst c ps).length = ps.length := by
  cases ps with
  | nil => exact absurd rfl h
  | cons p ps => rfl

theorem splitAtFreePipes_ne_nil (t : Text) : splitAtFreePipes t ≠ [] := by
  fun_cases splitAtFreePipes t <;> simp [extendFirst_ne_nil]

theorem splitAtPipes_ne_nil (escaped : Bool) (t : Text) : splitAtPipes escaped t ≠ [] := by
  cases t with
  | nil => simp [splitAtPipes]
  | cons c t =>
    rw [splitAtPipes]
    split
    · simp
    · exact extendFirst_ne_nil _ _

/-- Whether no pipe in a cell parts it from the rest of a header. -/
def pipeFree (cell : Text) : Bool := (splitAtFreePipes cell).length == 1

theorem splitAtFreePipes_cell {cell : Text} (h : pipeFree cell = true) (t : Text) :
    splitAtFreePipes (cell ++ ' ' :: t) = prepend cell (splitAtFreePipes (' ' :: t)) := by
  have h' : (splitAtFreePipes cell).length = 1 := by simpa [pipeFree] using h
  clear h
  fun_induction splitAtFreePipes cell with
  | case1 => rw [List.nil_append, prepend_nil (splitAtFreePipes_ne_nil _)]
  | case2 c u hc ih =>
    rw [extendFirst_length (extendFirst_ne_nil _ _),
      extendFirst_length (splitAtFreePipes_ne_nil _)] at h'
    rw [List.cons_append, List.cons_append, splitAtFreePipes, if_pos hc, ih h', extendFirst_eq,
      extendFirst_eq, ← prepend_append, ← prepend_append]
    rfl
  | case3 c u hc ih =>
    rw [extendFirst_length (splitAtFreePipes_ne_nil _)] at h'
    rw [List.cons_append] at ih
    rw [List.cons_append, List.cons_append, splitAtFreePipes, if_neg hc, ih h', extendFirst_eq,
      ← prepend_append]
    rfl
  | case4 c u hs hc ih =>
    have := List.length_pos_iff.mpr (splitAtFreePipes_ne_nil u)
    rw [List.length_cons] at h'
    omega
  | case5 c u hs hc ih =>
    rw [extendFirst_length (splitAtFreePipes_ne_nil _)] at h'
    by_cases hslash : c = '\\'
    · -- a last backslash does not escape the space behind the cell
      cases u with
      | cons d u => exact absurd rfl (hs d u hslash)
      | nil =>
        have hspace : ¬ Text.isAsciiPunctuation ' ' = true := by decide
        rw [hslash, List.singleton_append, splitAtFreePipes, if_neg hspace, extendFirst_eq]
    · have hstep : splitAtFreePipes (c :: (u ++ ' ' :: t)) =
          extendFirst c (splitAtFreePipes (u ++ ' ' :: t)) := by
        rw [splitAtFreePipes]
        · rw [if_neg hc]
        · intro d v he
          exact absurd he hslash
      rw [List.cons_append, hstep, ih h', extendFirst_eq, ← prepend_append]
      rfl

theorem splitAtFreePipes_spaces (n : Nat) (t : Text) :
    splitAtFreePipes (List.replicate n ' ' ++ t) =
      prepend (List.replicate n ' ') (splitAtFreePipes t) := by
  induction n with
  | zero => rw [List.replicate_zero, List.nil_append, prepend_nil (splitAtFreePipes_ne_nil _)]
  | succ n ih =>
    have hstep : splitAtFreePipes (' ' :: (List.replicate n ' ' ++ t)) =
        extendFirst ' ' (splitAtFreePipes (List.replicate n ' ' ++ t)) := by
      rw [splitAtFreePipes]
      · rfl
      · intro d v he
        cases he
    rw [List.replicate_succ, List.cons_append, hstep, ih, extendFirst_eq, ← prepend_append]
    rfl

/-- A row of which no cell has a free pipe is parted at the pipes before, between and behind its
cells. -/
theorem splitAtFreePipes_row {cells : List (Text × Nat)}
    (h : ∀ c ∈ cells, pipeFree c.1 = true) :
    ∃ pieces, pieces.length = cells.length ∧
      splitAtFreePipes (cells.flatMap (fun (cell, width) => writeCell cell width) ++ ['|']) =
        [] :: pieces ++ [[]] := by
  induction cells with
  | nil => exact ⟨[], rfl, rfl⟩
  | cons c cells ih =>
    obtain ⟨pieces, hlen, hpieces⟩ := ih fun d hd => h d (by simp [hd])
    obtain ⟨cell, width⟩ := c
    have hcell : pipeFree cell = true := h (cell, width) (by simp)
    refine ⟨(' ' :: cell ++ List.replicate (width - Text.width cell + 1) ' ') :: pieces,
      by simp [hlen], ?_⟩
    generalize hrest : cells.flatMap (fun (cell, width) => writeCell cell width) ++ ['|'] = rest
      at hpieces
    have hrow : ((cell, width) :: cells).flatMap (fun (cell, width) => writeCell cell width) ++
        ['|'] = '|' :: (List.replicate 1 ' ' ++ (cell ++ ' ' ::
          (List.replicate (width - Text.width cell) ' ' ++ rest))) := by
      simp [writeCell, ← hrest, List.replicate_succ]
    have hpipe : ∀ t, splitAtFreePipes ('|' :: t) = [] :: splitAtFreePipes t := by
      intro t
      rw [splitAtFreePipes]
      · rfl
      · intro d v he
        cases he
    have hpad : ∀ t, splitAtFreePipes (' ' :: t) = prepend [' '] (splitAtFreePipes t) :=
      fun t => splitAtFreePipes_spaces 1 t
    rw [hrow, hpipe, splitAtFreePipes_spaces, splitAtFreePipes_cell hcell, hpad,
      splitAtFreePipes_spaces, hpieces]
    simp [prepend, List.replicate_succ]

theorem columnCount_row {cells : List Text} {widths : List Nat} (hne : cells ≠ [])
    (hlen : widths.length = cells.length) (h : ∀ c ∈ cells, pipeFree c = true) :
    columnCount (splitAtFreePipes (rowLine cells widths)) = cells.length := by
  have hzip : ∀ c ∈ cells.zip widths, pipeFree c.1 = true := by
    rintro ⟨cell, width⟩ hc
    exact h cell (List.of_mem_zip hc).1
  obtain ⟨pieces, hcount, hpieces⟩ := splitAtFreePipes_row hzip
  have hcells : pieces.length = cells.length := by simp [hcount, hlen]
  have hpos : 0 < cells.length := List.length_pos_iff.mpr hne
  have hlast : ([] :: pieces ++ [[]]).getLast? = some ([] : Text) := by
    rw [List.getLast?_concat]
  rw [rowLine, hpieces, columnCount, hlast]
  simp [isBlankText, hcells]

theorem firstColumns_row {cells : List Text} {widths : List Nat} (hne : cells ≠ [])
    (hlen : widths.length = cells.length) (h : ∀ c ∈ cells, pipeFree c = true) :
    firstColumns (rowLine cells widths) = cells.length := by
  have hend : endsInBackslash (rowLine cells widths) = false := by
    simp [endsInBackslash, rowLine, Text.runLength]
  rw [firstColumns, hend, columnCount_row hne hlen h]
  rfl

theorem splitAtPipes_length (escaped : Bool) (a b : Text) :
    2 ≤ (splitAtPipes escaped (a ++ ' ' :: '|' :: b)).length := by
  induction a generalizing escaped with
  | nil =>
    have hpos := List.length_pos_iff.mpr (splitAtPipes_ne_nil false b)
    simp only [List.nil_append, splitAtPipes]
    simp [extendFirst]
    omega
  | cons c a ih =>
    rw [List.cons_append, splitAtPipes]
    split
    · have := ih false
      rw [List.length_cons]
      omega
    · rw [extendFirst_length (splitAtPipes_ne_nil _ _)]
      exact ih _

theorem rowLine_shape {cells : List Text} {widths : List Nat} (hne : cells ≠ [])
    (hlen : widths.length = cells.length) :
    ∃ a, rowLine cells widths = '|' :: (a ++ ' ' :: '|' :: []) := by
  cases cells with
  | nil => exact absurd rfl hne
  | cons cell cells =>
    cases widths with
    | nil => simp at hlen
    | cons width widths =>
      obtain ⟨front, ⟨last, w⟩, hlast⟩ : ∃ front last, (cell, width) :: cells.zip widths =
          front ++ [last] :=
        ⟨_, _, (List.dropLast_append_getLast (by simp)).symm⟩
      have hrow : rowLine (cell :: cells) (width :: widths) =
          front.flatMap (fun (cell, width) => writeCell cell width) ++
            ('|' :: ' ' :: last ++ List.replicate (w - Text.width last) ' ') ++ ' ' :: ['|'] := by
        rw [rowLine, List.zip_cons_cons, hlast]
        simp [writeCell, List.replicate_succ']
      obtain ⟨a, ha⟩ : ∃ a, front.flatMap (fun (cell, width) => writeCell cell width) ++
          ('|' :: ' ' :: last ++ List.replicate (w - Text.width last) ' ') = '|' :: a := by
        cases front with
        | nil => exact ⟨_, rfl⟩
        | cons c front => exact ⟨_, rfl⟩
      exact ⟨a, by rw [hrow, ha]; rfl⟩

theorem cells_row_ne_nil {cells : List Text} {widths : List Nat} (hne : cells ≠ [])
    (hlen : widths.length = cells.length) :
    (Markdown.cells (rowLine cells widths)).isEmpty = false := by
  obtain ⟨a, ha⟩ := rowLine_shape hne hlen
  have htwo := splitAtPipes_length false a []
  have hdrop : ('|' :: (a ++ ' ' :: '|' :: [])).dropWhile Text.isSpacing =
      '|' :: (a ++ ' ' :: '|' :: []) := by
    simp [Text.isSpacing]
  simp only [ha, Markdown.cells, hdrop]
  simp only [List.head?_cons, beq_self_eq_true, if_true, List.drop_one, List.tail_cons]
  generalize splitAtPipes false (a ++ [' ', '|']) = pieces at htwo
  split
  · have hlen : pieces.dropLast.length = pieces.length - 1 := by simp
    cases hd : pieces.dropLast with
    | nil =>
      rw [hd, List.length_nil] at hlen
      omega
    | cons p ps => rfl
  · cases pieces with
    | nil => simp at htwo
    | cons p ps => rfl

theorem foldlM_dashes (n : Nat) {d : Delimiters} :
    (List.replicate (n + 1) '-').foldlM Delimiters.step? d =
      some { d with fresh := false, hyphen := true } := by
  induction n generalizing d with
  | zero => rfl
  | succ n ih =>
    rw [List.replicate_succ, List.foldlM_cons]
    exact ih

theorem foldlM_delimiterCell (a : Alignment) (done : List Alignment) {width : Nat}
    (hw : a = .center → 1 ≤ width) :
    (delimiterCell a width ++ ['|']).foldlM Delimiters.step? ⟨done, .none, true, false⟩ =
      some ⟨a :: done, .none, true, false⟩ := by
  cases a with
  | none =>
    rw [delimiterCell, List.foldlM_append, foldlM_dashes]
    rfl
  | left =>
    have hcolon : Delimiters.step? ⟨done, .none, true, false⟩ ':' =
        some ⟨done, .left, false, false⟩ := rfl
    rw [delimiterCell, List.cons_append, List.foldlM_cons, hcolon, Option.bind_eq_bind,
      Option.bind_some, List.foldlM_append, foldlM_dashes]
    rfl
  | right =>
    rw [delimiterCell, List.append_assoc, List.foldlM_append, foldlM_dashes]
    rfl
  | center =>
    obtain ⟨k, rfl⟩ := Nat.exists_eq_add_of_le' (hw rfl)
    have hcolon : Delimiters.step? ⟨done, .none, true, false⟩ ':' =
        some ⟨done, .left, false, false⟩ := rfl
    rw [delimiterCell, List.cons_append, List.cons_append, List.append_assoc, List.foldlM_cons,
      hcolon, Option.bind_eq_bind, Option.bind_some, List.foldlM_append, foldlM_dashes]
    rfl

theorem foldlM_delimiterCells {columns : List (Alignment × Nat)}
    (hw : ∀ c ∈ columns, c.1 = .center → 1 ≤ c.2) (done : List Alignment) :
    (columns.flatMap fun (a, width) => delimiterCell a width ++ ['|']).foldlM Delimiters.step?
        ⟨done, .none, true, false⟩ =
      some ⟨(columns.map Prod.fst).reverse ++ done, .none, true, false⟩ := by
  induction columns generalizing done with
  | nil => rfl
  | cons c columns ih =>
    obtain ⟨a, width⟩ := c
    have hc := foldlM_delimiterCell a done (hw (a, width) (by simp))
    rw [List.flatMap_cons, List.foldlM_append, hc, Option.bind_eq_bind, Option.bind_some,
      ih fun d hd => hw d (by simp [hd])]
    simp

theorem flatMap_pipes {α : Type} (f : α → Text) (xs : List α) :
    xs.flatMap (fun x => '|' :: f x) ++ ['|'] = '|' :: xs.flatMap fun x => f x ++ ['|'] := by
  induction xs with
  | nil => rfl
  | cons x xs ih => simp [ih]

theorem delimiterLine_eq (alignments : List Alignment) (widths : List Nat) :
    delimiterLine alignments widths = '|' :: (widths.zipIdx.map fun (width, column) =>
      (alignmentOf alignments column, width)).flatMap fun (a, width) =>
        delimiterCell a width ++ ['|'] := by
  rw [delimiterLine, List.flatMap_map]
  exact flatMap_pipes _ _

theorem hyphen_mem_delimiterCell {a : Alignment} {width : Nat} (hw : a = .center → 1 ≤ width) :
    '-' ∈ delimiterCell a width := by
  cases a with
  | center =>
    obtain ⟨k, rfl⟩ := Nat.exists_eq_add_of_le' (hw rfl)
    simp [delimiterCell]
  | _ => simp [delimiterCell]

theorem columnWidth_center {alignments : List Alignment} {column : Nat}
    (h : alignmentOf alignments column = .center) (rows : List Layout.Row) :
    1 ≤ Layout.columnWidth alignments rows column := by
  simp only [Layout.columnWidth, h]
  omega

theorem delimiterRow_line (alignments : List Alignment) {columns : Nat} (hpos : 0 < columns)
    (rows : List Layout.Row) :
    delimiterRow? (delimiterLine alignments (columnWidths alignments columns rows)) =
      some ((List.range columns).map (alignmentOf alignments)) := by
  have hcolumns : ((columnWidths alignments columns rows).zipIdx.map fun (width, column) =>
      (alignmentOf alignments column, width)) = (List.range columns).map fun column =>
        (alignmentOf alignments column, Layout.columnWidth alignments rows column) := by
    refine List.ext_getElem (by simp [columnWidths]) fun i hi hj => ?_
    simp [columnWidths]
  have hcenter : ∀ c ∈ (List.range columns).map fun column =>
      (alignmentOf alignments column, Layout.columnWidth alignments rows column),
      c.1 = .center → 1 ≤ c.2 := by
    intro c hc
    obtain ⟨column, -, rfl⟩ := List.mem_map.mp hc
    exact fun h => columnWidth_center h rows
  have hfold := foldlM_delimiterCells hcenter []
  rw [delimiterLine_eq, hcolumns]
  generalize hbody : ((List.range columns).map fun column => (alignmentOf alignments column,
    Layout.columnWidth alignments rows column)).flatMap (fun (a, width) =>
      delimiterCell a width ++ ['|']) = body at hfold
  have hhyphen : '-' ∈ body := by
    rw [← hbody, List.mem_flatMap]
    refine ⟨_, List.mem_map.mpr ⟨0, List.mem_range.mpr hpos, rfl⟩, ?_⟩
    exact List.mem_append_left _ (hyphen_mem_delimiterCell fun h => columnWidth_center h rows)
  have hany : ('|' :: body).any (· == '-') = true := by simpa using hhyphen
  simp [delimiterRow?, hfold, hany, Function.comp_def]

theorem rowLine_plain {cells : List Text} {widths : List Nat} (hne : cells ≠ [])
    (hlen : widths.length = cells.length) : ∃ u, rowLine cells widths = '|' :: u := by
  obtain ⟨a, ha⟩ := rowLine_shape hne hlen
  exact ⟨_, ha⟩

theorem interrupts_pipe (t : Text) : interrupts true ('|' :: t) = false := by
  have hplain : Plain ('|' :: t) := plain_of_head t rfl (by decide) rfl
  have hlevel : headingLevel? ('|' :: t) = none := by simp [headingLevel?, Text.runLength]
  have hfence : fence? ('|' :: t) = none := by simp [fence?]
  have hmarker : markerInterrupts true ('|' :: t) = false := by
    simp [markerInterrupts, listMarker?, Text.isDigit]
  simp [interrupts, hplain.html, hplain.tag, hplain.thematic, hlevel, hfence, hmarker]

theorem tableRows_eq {widths : List Nat} {rows : List Layout.Row} (hw : widths ≠ [])
    (hrows : ∀ row ∈ rows, row.length = widths.length) (columns : Nat) {tail : List Line}
    (htail : tail = [] ∨ ∃ rest, tail = fullLine [] :: rest) :
    tableRows [] columns (rows.map (fun row => fullLine (rowLine row widths)) ++ tail) =
      (rows.map fun row => fitRow columns (cells (rowLine row widths)), tail) := by
  induction rows with
  | nil =>
    rcases htail with rfl | ⟨rest, rfl⟩
    · rfl
    · rfl
  | cons row rows ih =>
    have hlen : widths.length = row.length := (hrows row (by simp)).symm
    have hne : row ≠ [] := by
      rintro rfl
      exact hw (List.length_eq_zero_iff.mp hlen)
    obtain ⟨u, hu⟩ := rowLine_plain hne hlen
    have hcells := cells_row_ne_nil hne hlen
    have hrest := ih fun r hr => hrows r (by simp [hr])
    have hdrop : ('|' :: u).dropWhile Text.isSpaceOrTab = '|' :: u := by simp [Text.isSpaceOrTab]
    rw [hu] at hcells
    have hin : inside? [] (fullLine ('|' :: u)) = some (indented 0 ('|' :: u) 0) := rfl
    rw [List.map_cons, List.cons_append, tableRows, hu]
    simp only [hin, indented_zero_rest, hdrop, interrupts_pipe, hcells, Bool.or_self, hrest,
      Bool.false_eq_true, if_false, List.map_cons, hu]

theorem definition_pipe (t ending : Text) (further : List FurtherLine) :
    definition? (joinLines ('|' :: t) ending further) = none := by
  cases further with
  | nil => rfl
  | cons l ls => rfl

theorem tableHead_delimiterLine (alignments : List Alignment) {columns : Nat} (hpos : 0 < columns)
    (rows : List Layout.Row) (following : List Line) :
    tableHead? [] columns
        (fullLine (delimiterLine alignments (columnWidths alignments columns rows)) :: following) =
      some ((List.range columns).map (alignmentOf alignments)) := by
  have hrow := delimiterRow_line alignments hpos rows
  rw [delimiterLine_eq] at hrow ⊢
  generalize List.flatMap _ _ = body at hrow ⊢
  have hflush : Flush ('|' :: body) := flush_cons _ rfl
  have hskip := indented_skip_four (e := 0) (by omega) hflush 0
  have hin : inside? [] (fullLine ('|' :: body)) = some (indented 0 ('|' :: body) 0) := rfl
  simp [tableHead?, hin, hskip, indented_zero_rest, hrow]

/-- A table whose header has no pipe of its own is read up to the end or to a line without text. -/
theorem readLeaf_table {s : State} (hs : s.finishList.spine = []) (alignments : List Alignment)
    {columns : Nat} (hpos : 0 < columns) {header : Layout.Row} {rows : List Layout.Row}
    (hheader : header.length = columns) (hrows : ∀ row ∈ rows, row.length = columns)
    (hfree : ∀ c ∈ header, pipeFree c = true) {widths : List Nat}
    (hw : widths = columnWidths alignments columns (header :: rows)) {tail : List Line}
    (htail : tail = [] ∨ ∃ rest, tail = fullLine [] :: rest) :
    readLeaf s (indented 0 (rowLine header widths) 0) ['
']
        (fullLine (delimiterLine alignments widths) ::
          (rows.map (fun row => fullLine (rowLine row widths)) ++ tail)) =
      (s.finishList.add (.table ((List.range columns).map (alignmentOf alignments))
        (fitRow columns (cells (rowLine header widths)))
        (rows.map fun row => fitRow columns (cells (rowLine row widths)))), tail) := by
  have hlen : widths.length = columns := by simp [hw, columnWidths]
  have hwidths : widths ≠ [] := List.length_pos_iff.mp (by omega)
  have hne : header ≠ [] := List.length_pos_iff.mp (by omega)
  have hfirst := firstColumns_row hne (hlen.trans hheader.symm) hfree
  have hhead := tableHead_delimiterLine alignments hpos (header :: rows)
    (rows.map (fun row => fullLine (rowLine row widths)) ++ tail)
  have hbody := tableRows_eq hwidths (fun row hr => (hrows row hr).trans hlen.symm) columns htail
  rw [← hw] at hhead
  obtain ⟨u, hu⟩ := rowLine_plain hne (hlen.trans hheader.symm)
  rw [hu] at hfirst ⊢
  have hplain : Plain ('|' :: u) := plain_of_head u rfl (by decide) rfl
  have hlevel : headingLevel? ('|' :: u) = none := by simp [headingLevel?, Text.runLength]
  have hfence : fence? ('|' :: u) = none := by simp [fence?]
  rw [hheader] at hfirst
  simp only [readLeaf, indented_skip_four (e := 0) (by omega) hplain.flush, indented_zero_rest,
    hplain.html, hplain.tag, hplain.line, hplain.thematic, hlevel, hfence, Bool.or_self,
    readDefinitions, definition_pipe]
  simp [readParagraph, ← firstColumns.eq_def, hfirst, hs, hhead, hbody]

end CanonMark.Markdown
