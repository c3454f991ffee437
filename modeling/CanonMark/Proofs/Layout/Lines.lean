import CanonMark.Proofs.Layout.Nesting

/-! # Documents as lines

Every block is a list of lines, and a document is the lines of its blocks with an empty line between
neighbours.
-/
namespace CanonMark.Layout

def literals (cs : List Node) : Text := cs.flatMap Node.literal

def headingLine (level : Nat) (text : Text) : Text :=
  let shielded := shieldHashes (escape (trimFlatten text))
  List.replicate level '#' ++ if shielded.isEmpty then [] else ' ' :: shielded

def fenceWidth (fenced : Bool) (fenceLength : Nat) : Nat :=
  if fenced && fenceLength > 0 then fenceLength else 3

def codeLines (code : Text) : List Text := (Text.splitOn '\n' code).dropLast

def cellText (n : Node) : Text :=
  match compileCell n with
  | .ok t => t
  | .error _ => []

def rowTexts (row : Node) : Row := row.children.map cellText

def rowLine (cells : Row) (widths : List Nat) : Text :=
  ((cells.zip widths).flatMap fun (cell, columnWidth) => writeCell cell columnWidth) ++ ['|']

def delimiterLine (alignments : List Alignment) (widths : List Nat) : Text :=
  (widths.zipIdx.flatMap fun (columnWidth, column) =>
    '|' :: delimiterCell (alignmentOf alignments column) columnWidth) ++ ['|']

def columnWidths (alignments : List Alignment) (columns : Nat) (rows : List Row) : List Nat :=
  (List.range columns).map (columnWidth alignments rows)

def tableLines (alignments : List Alignment) (columns : Nat) (header : Row) (rows : List Row) :
    List Text :=
  let widths := columnWidths alignments columns (header :: rows)
  rowLine header widths :: delimiterLine alignments widths :: rows.map (rowLine · widths)

def blockLines (cols : Nat) : Node → List Text
  | .mk (.heading level) _ cs => [headingLine level (literals cs)]
  | .mk (.codeBlock fenced fenceLength info) code _ =>
    let fence := List.replicate (fenceWidth fenced fenceLength) '\x60'
    (fence ++ info) :: codeLines code ++ [fence]
  | .mk (.table alignments) _ [.mk .tableHead _ [header], .mk .tableBody _ rows] =>
    tableLines alignments header.children.length (rowTexts header) (rows.map rowTexts)
  | n => flowLines cols n

def documentLines (cols : Nat) : List Node → List Text
  | [] => []
  | [n] => blockLines cols n
  | n :: m :: ns => blockLines cols n ++ [] :: documentLines cols (m :: ns)

/-- Code that is empty or ends with a line end. -/
def wholeLines (code : Text) : Bool := code.getLast?.all (· == '\n')

/-- A block that ends in a line of its own. -/
def closed : Node → Bool
  | .mk (.codeBlock _ _ _) code _ => wholeLines code
  | _ => true

theorem fenceWidth_pos (fenced : Bool) (length : Nat) : 0 < fenceWidth fenced length := by
  unfold fenceWidth
  split
  · next h => simp_all
  · omega

theorem unlines_codeLines {code : Text} (h : wholeLines code) : unlines (codeLines code) = code := by
  cases hlast : code.getLast? with
  | none =>
    obtain rfl : code = [] := by simpa using hlast
    rfl
  | some c =>
    obtain rfl : c = '\n' := by simpa [wholeLines, hlast] using h
    obtain ⟨front, rfl⟩ : ∃ front, code = front ++ ['\n'] :=
      ⟨code.dropLast, (List.dropLast_append_getLast? _ hlast).symm⟩
    rw [codeLines, splitOn_append_sep]
    simp [Text.splitOn, unlines_splitOn]

theorem headingText_eq {cs : List Node} (h : ∀ c ∈ cs, c.isText) :
    headingText cs = .ok (literals cs) := by
  induction cs with
  | nil => rfl
  | cons c cs ih =>
    have hc : c.isText := h c (by simp)
    rw [headingText, if_pos hc, ih fun d hd => h d (by simp [hd])]
    rfl

theorem heading_eq (level : Nat) {cs : List Node} (h : ∀ c ∈ cs, c.isText) :
    heading level cs = .ok (unlines [headingLine level (literals cs)] ++ ['\n']) := by
  simp only [heading, headingText_eq h, bind, Except.bind, pure, Except.pure, headingLine]
  split <;> simp

theorem codeBlock_eq (fenced : Bool) (fenceLength : Nat) (info : Text) {code : Text}
    (h : wholeLines code) :
    codeBlock fenced fenceLength info code =
      unlines ((List.replicate (fenceWidth fenced fenceLength) '\x60' ++ info) :: codeLines code ++
        [List.replicate (fenceWidth fenced fenceLength) '\x60']) ++ ['\n'] := by
  rw [List.cons_append, unlines_cons, unlines_append, unlines_codeLines h]
  simp [codeBlock, fenceWidth]

theorem compileCell_eq {n : Node} (h : CellShape n) : compileCell n = .ok (cellText n) := by
  have hf := compileCell_fault n
  rw [(cellFault_none n).mpr h, errorOf_eq_none_iff] at hf
  obtain ⟨t, ht⟩ := hf
  simp [cellText, ht]

theorem compileRow_eq {columns : Nat} {row : Node} (h : RowShape columns row) (index : Nat) :
    compileRow columns index row = .ok (rowTexts row) := by
  cases h with
  | @mk l cells hlen hcells =>
    have hmap : ∀ cs : List Node, (∀ c ∈ cs, CellShape c) →
        cs.mapM compileCell = .ok (cs.map cellText) := by
      intro cs
      induction cs with
      | nil => intro _; rfl
      | cons c cs ih =>
        intro hcs
        rw [List.mapM_cons, compileCell_eq (hcs c (by simp)), ih fun d hd => hcs d (by simp [hd])]
        rfl
    simp [compileRow, hlen, hmap cells hcells, rowTexts, Node.children]

theorem compileRows_eq {columns : Nat} {rows : List Node} (h : ∀ r ∈ rows, RowShape columns r)
    (index : Nat) : compileRows columns index rows = .ok (rows.map rowTexts) := by
  induction rows generalizing index with
  | nil => rfl
  | cons r rows ih =>
    rw [compileRows, compileRow_eq (h r (by simp)), ih fun q hq => h q (by simp [hq])]
    rfl

theorem writeTable_eq (alignments : List Alignment) (columns : Nat) (header : Row)
    (rows : List Row) :
    writeTable alignments columns header rows =
      unlines (tableLines alignments columns header rows) ++ ['\n'] := by
  have hrow : ∀ cells widths, writeRow cells widths = rowLine cells widths ++ ['\n'] := by
    intro cells widths
    simp [writeRow, rowLine]
  simp [writeTable, tableLines, columnWidths, hrow, delimiterRow, delimiterLine, unlines,
    List.flatMap_map]

theorem table_eq (alignments : List Alignment) (l : Text) {cs : List Node} (h : TableShape cs)
    (cols : Nat) : table (.mk (.table alignments) l cs) =
      .ok (unlines (blockLines cols (.mk (.table alignments) l cs)) ++ ['\n']) := by
  cases h with
  | @mk a b columns header rows hpos hheader hne hrows =>
    obtain ⟨hl, hlen, hkind⟩ : ∃ hl : List Node, hl.length = columns ∧
        header = .mk .tableRow header.literal hl := by
      cases hheader with
      | mk l hlen _ => exact ⟨_, hlen, rfl⟩
    have hcolumns : header.children.length = columns := by rw [hkind]; exact hlen
    have hcells : hl ≠ [] := List.length_pos_iff.mp (by omega)
    have hparts : tableParts [.mk .tableHead a [header], .mk .tableBody b rows] =
        .ok (header, rows) := by
      rw [hkind]
      simp [tableParts, Node.kind, Node.children, hcells, hne]
    have hrow := compileRow_eq hheader 0
    rw [← hcolumns] at hrow hrows
    change (tableParts [.mk .tableHead a [header], .mk .tableBody b rows] >>= _) = _
    rw [hparts]
    change (compileRow header.children.length 0 header >>= _) = _
    rw [hrow]
    change (compileRows header.children.length 1 rows >>= _) = _
    rw [compileRows_eq hrows 1]
    change Except.ok (writeTable alignments header.children.length _ _) = _
    rw [writeTable_eq, blockLines]

/-- Every block is its lines, each with its end, and an empty line. -/
theorem block_eq_lines (cols : Nat) {n : Node} (h : Renderable n) (hc : closed n) :
    block cols n = .ok (unlines (blockLines cols n) ++ ['\n']) := by
  cases h with
  | heading level l hcs => exact heading_eq level hcs
  | paragraph l hcs => exact paragraph_block_eq cols l hcs
  | codeBlock fenced length info code cs =>
    rw [block, codeBlock_eq _ _ _ hc]
    rfl
  | quote l hcs => exact quote_block_eq cols l hcs
  | list ordered l hitems => exact list_block_eq cols ordered l hitems
  | table alignments l hcs => exact table_eq alignments l hcs cols

theorem unlines_ne_nil {ls : List Text} (h : ls ≠ []) : ∃ t, unlines ls = t ++ ['\n'] := by
  obtain ⟨front, l, rfl⟩ : ∃ front l, ls = front ++ [l] :=
    ⟨ls.dropLast, ls.getLast h, (List.dropLast_append_getLast h).symm⟩
  exact ⟨unlines front ++ l, by simp⟩

theorem documentLines_cons {cols : Nat} {ns : List Node} (n : Node) (h : ns ≠ []) :
    documentLines cols (n :: ns) = blockLines cols n ++ [] :: documentLines cols ns := by
  cases ns with
  | nil => exact absurd rfl h
  | cons m ns => rfl

theorem blocks_eq_lines {cols : Nat} {cs : List Node} (hr : ∀ c ∈ cs, Renderable c ∧ closed c)
    (hne : cs ≠ []) : blocks cols cs = .ok (unlines (documentLines cols cs) ++ ['\n']) := by
  induction cs with
  | nil => exact absurd rfl hne
  | cons c cs ih =>
    have hc := block_eq_lines cols (hr c (by simp)).1 (hr c (by simp)).2
    cases cs with
    | nil => simp [blocks, hc, documentLines, bind, Except.bind, pure, Except.pure]
    | cons d cs =>
      have hrest := ih (fun e he => hr e (by simp [he])) (by simp)
      rw [blocks, hc, hrest, documentLines_cons c (by simp)]
      simp [bind, Except.bind, pure, Except.pure]

theorem finish_lines {ls : List Text} (h : ∃ c t rest, ls = (c :: t) :: rest) :
    finish (unlines ls ++ ['\n']) = unlines ls := by
  obtain ⟨c, t, rest, rfl⟩ := h
  obtain ⟨front, hfront⟩ := unlines_ne_nil (show (c :: t) :: rest ≠ [] by simp)
  have hsuffix : "\n\n".toList.isSuffixOf (unlines ((c :: t) :: rest) ++ ['\n']) = true := by
    rw [hfront, List.append_assoc, List.isSuffixOf_iff_suffix]
    exact ⟨front, rfl⟩
  have hlong : ∀ d, unlines ((c :: t) :: rest) ≠ [d] := by
    intro d hd
    simp at hd
  rw [finish, if_pos hsuffix, List.dropLast_concat]
  split
  · next d hd => exact absurd hd (hlong d)
  · rfl

/-- A document is its blocks' lines, with an empty line between neighbours. -/
theorem document_eq_lines (options : Options) (l : Text) {cs : List Node}
    (hr : ∀ c ∈ cs, Renderable c ∧ closed c)
    (hlines : ∀ c ∈ cs, ∃ x t rest, blockLines options.cols c = (x :: t) :: rest) :
    document options (.mk .document l cs) = .ok (unlines (documentLines options.cols cs)) := by
  cases cs with
  | nil => rfl
  | cons c cs =>
    have hfirst : ∃ x t rest, documentLines options.cols (c :: cs) = (x :: t) :: rest := by
      obtain ⟨x, t, rest, h⟩ := hlines c (by simp)
      cases cs with
      | nil => exact ⟨x, t, rest, h⟩
      | cons d cs => exact ⟨x, t, _, by rw [documentLines, h]; rfl⟩
    simp only [document, blocks_eq_lines hr (by simp), Functor.map, Except.map,
      finish_lines hfirst]

end CanonMark.Layout
