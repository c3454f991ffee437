import CanonMark.Proofs.Layout.Greedy
import CanonMark.Proofs.Layout.Lines
import Mathlib.Algebra.GroupWithZero.Nat
import Mathlib.Data.List.Forall2
import Mathlib.Order.Bounds.Defs

/-! # Columns of a table

The width of a text is not the sum of the widths of its parts, since characters join others beside
them. A space and a pipe join nothing. So a row is as wide as its cells, its padding and its pipes
together, and as every other row.
-/
namespace CanonMark

namespace Text

/-- A character with a column of its own behind anything, and behind which anything begins anew. -/
def Parting (c : Char) : Prop := ∀ lead, widthStep lead c = (1, .plain)

theorem parting_of_lead {c : Char} (hc : c.toNat < 128) (hfeed : c ≠ '\n')
    (hlead : leadOf c = .plain) : Parting c := by
  intro lead
  by_cases hjoined : lead = .joined
  · have hwidth : charWidth c = 1 := if_pos hc
    subst hjoined
    simp [widthStep, hlead, hwidth]
  · rw [widthStep_of_ascii hjoined hc hfeed, hlead]

theorem parting_space : Parting ' ' := parting_of_lead (by decide) (by decide) (by decide)

theorem parting_pipe : Parting '|' := parting_of_lead (by decide) (by decide) (by decide)

theorem Parting.widthFrom_append {c : Char} (hc : Parting c) (lead : Lead) (s t : Text) :
    widthFrom lead (s ++ c :: t) = widthFrom lead s + (1 + width t) := by
  induction s generalizing lead with
  | nil =>
    simp only [List.nil_append, widthFrom, hc lead, Nat.zero_add]
    rfl
  | cons d s ih =>
    rw [List.cons_append, widthFrom, widthFrom]
    simp only [ih]
    omega

theorem Parting.width_append {c : Char} (hc : Parting c) (s t : Text) :
    width (s ++ c :: t) = width s + (1 + width t) :=
  hc.widthFrom_append .plain s t

theorem width_spaces_append (n : Nat) (t : Text) :
    width (List.replicate n ' ' ++ t) = n + width t := by
  induction n with
  | zero => simp
  | succ n ih =>
    have hspace := parting_space.width_append [] (List.replicate n ' ' ++ t)
    rw [List.nil_append, ih] at hspace
    have hnone : width [] = 0 := rfl
    rw [List.replicate_succ, List.cons_append, hspace]
    omega

end Text

namespace Layout

def escapePipes (t : Text) : Text := Text.replace '|' "\\|".toList t

def CellMarkup (n : Node) (t : Text) : Prop := n.kind = .tableCell ∧ inlineText n.children = .ok t

def RowMarkup (row : Node) (cells : List Text) : Prop :=
  row.kind = .tableRow ∧ List.Forall₂ CellMarkup row.children cells

inductive TableMarkup : List Node → List Text → List (List Text) → Prop where
  | mk (l m) {headerRow : Node} {bodyRows : List Node} {header : List Text}
      {rows : List (List Text)} : RowMarkup headerRow header →
      List.Forall₂ RowMarkup bodyRows rows →
      TableMarkup [.mk .tableHead l [headerRow], .mk .tableBody m bodyRows] header rows

theorem cellShape_markup {n : Node} (h : CellShape n) :
    ∃ t, CellMarkup n t ∧ cellText n = escapePipes t := by
  have hcompiles := compileCell_eq h
  cases h with
  | @mk l cs hcs =>
    rw [compileCell] at hcompiles
    cases htext : inlineText cs with
    | error e =>
      rw [htext] at hcompiles
      cases hcompiles
    | ok t =>
      rw [htext] at hcompiles
      exact ⟨t, ⟨rfl, htext⟩, (Except.ok.inj hcompiles).symm⟩

theorem rowShape_markup {columns : Nat} {row : Node} (h : RowShape columns row) :
    ∃ ts, RowMarkup row ts ∧ ts.length = columns ∧ rowTexts row = ts.map escapePipes := by
  cases h with
  | @mk l cells hlength hcells =>
    have hall : ∀ cs : List Node, (∀ c ∈ cs, CellShape c) → ∃ ts, List.Forall₂ CellMarkup cs ts ∧
        cs.map cellText = ts.map escapePipes := by
      intro cs
      induction cs with
      | nil => exact fun _ => ⟨[], .nil, rfl⟩
      | cons c cs ih =>
        intro hcs
        obtain ⟨t, hmarkup, htext⟩ := cellShape_markup (hcs c (by simp))
        obtain ⟨ts, hmarkups, htexts⟩ := ih fun d hd => hcs d (by simp [hd])
        exact ⟨t :: ts, .cons hmarkup hmarkups, by simp [htext, htexts]⟩
    obtain ⟨ts, hmarkups, htexts⟩ := hall cells hcells
    exact ⟨ts, ⟨rfl, hmarkups⟩, hmarkups.length_eq.symm.trans hlength, htexts⟩

theorem rowShapes_markup {columns : Nat} {rows : List Node} (h : ∀ r ∈ rows, RowShape columns r) :
    ∃ tss, List.Forall₂ RowMarkup rows tss ∧ (∀ ts ∈ tss, ts.length = columns) ∧
      rows.map rowTexts = tss.map (·.map escapePipes) := by
  induction rows with
  | nil => exact ⟨[], .nil, by simp, rfl⟩
  | cons row rows ih =>
    obtain ⟨ts, hmarkup, hlength, htexts⟩ := rowShape_markup (h row (by simp))
    obtain ⟨tss, hmarkups, hlengths, hrest⟩ := ih fun r hr => h r (by simp [hr])
    refine ⟨ts :: tss, .cons hmarkup hmarkups, ?_, by simp [htexts, hrest]⟩
    intro us hus
    rcases List.mem_cons.mp hus with rfl | hus
    · exact hlength
    · exact hlengths us hus

theorem table_of_markup {alignments : List Alignment} {l : Text} {cs : List Node} {out : Text}
    (h : table (.mk (.table alignments) l cs) = .ok out) :
    ∃ header rows, TableMarkup cs header rows ∧ (∀ row ∈ rows, row.length = header.length) ∧
      out = unlines (tableLines alignments header.length (header.map escapePipes)
        (rows.map (·.map escapePipes))) ++ ['\n'] := by
  have hshape : TableShape cs := by
    have hfault := table_fault (.mk (.table alignments) l cs)
    rw [h, errorOf_ok] at hfault
    exact (tableFault_none cs).mp hfault.symm
  rw [table_eq alignments l hshape 0] at h
  cases hshape with
  | @mk a b columns headerRow bodyRows hpos hheader hne hrows =>
    obtain ⟨header, hmarkup, hlength, htexts⟩ := rowShape_markup hheader
    obtain ⟨rows, hmarkups, hlengths, hbodies⟩ := rowShapes_markup hrows
    refine ⟨header, rows, .mk a b hmarkup hmarkups, ?_, ?_⟩
    · intro row hrow
      rw [hlengths row hrow, hlength]
    · rw [← Except.ok.inj h, blockLines, htexts, hbodies, hmarkup.2.length_eq]

def piped (fields : List Text) : Text := fields.flatMap ('|' :: ·) ++ ['|']

theorem piped_cons (field : Text) (fields : List Text) :
    piped (field :: fields) = '|' :: (field ++ piped fields) := by
  simp [piped]

/-- A field of a column: one space, the cell, and at least one space of padding, which together take
two columns more than the column is wide. -/
def Padded (cell : Text) (width : Nat) (field : Text) : Prop :=
  ∃ padding, 1 ≤ padding ∧ 1 + Text.width cell + padding = width + 2 ∧
    field = ' ' :: (cell ++ List.replicate padding ' ')

inductive InColumns : List Text → List Nat → List Text → Prop where
  | nil : InColumns [] [] []
  | cons {cell field : Text} {width : Nat} {cells fields : List Text} {widths : List Nat} :
      Padded cell width field → InColumns cells widths fields →
      InColumns (cell :: cells) (width :: widths) (field :: fields)

def paddedCell (cell : Text) (width : Nat) : Text :=
  ' ' :: (cell ++ List.replicate (width - Text.width cell + 1) ' ')

theorem padded_paddedCell {cell : Text} {width : Nat} (h : Text.width cell ≤ width) :
    Padded cell width (paddedCell cell width) :=
  ⟨width - Text.width cell + 1, by omega, by omega, rfl⟩

theorem rowLine_eq_piped (cells : List Text) (widths : List Nat) :
    rowLine cells widths = piped (List.zipWith paddedCell cells widths) := by
  induction cells generalizing widths with
  | nil => rfl
  | cons cell cells ih =>
    cases widths with
    | nil => rfl
    | cons width widths =>
      have hrest := ih widths
      rw [rowLine] at hrest ⊢
      rw [List.zipWith_cons_cons, piped_cons, ← hrest]
      simp [writeCell, paddedCell]

theorem inColumns_zipWith {cells : List Text} {widths : List Nat}
    (h : List.Forall₂ (fun cell width => Text.width cell ≤ width) cells widths) :
    InColumns cells widths (List.zipWith paddedCell cells widths) := by
  induction h with
  | nil => exact .nil
  | cons hle _ ih => exact .cons (padded_paddedCell hle) ih

theorem Padded.width_append {cell field : Text} {width : Nat} (h : Padded cell width field)
    (t : Text) : Text.width ('|' :: (field ++ t)) = width + 3 + Text.width t := by
  obtain ⟨padding, hpos, htotal, rfl⟩ := h
  obtain ⟨k, rfl⟩ := Nat.exists_eq_add_of_le' hpos
  have hshape : '|' :: (' ' :: (cell ++ List.replicate (k + 1) ' ') ++ t) =
      '|' :: ' ' :: (cell ++ ' ' :: (List.replicate k ' ' ++ t)) := by
    simp [List.replicate_succ]
  have hnone : Text.width [] = 0 := rfl
  have hpipe := Text.parting_pipe.width_append [] (' ' :: (cell ++ ' ' :: (List.replicate k ' ' ++ t)))
  have hspace := Text.parting_space.width_append [] (cell ++ ' ' :: (List.replicate k ' ' ++ t))
  rw [List.nil_append] at hpipe hspace
  rw [hshape, hpipe, hspace, Text.parting_space.width_append, Text.width_spaces_append]
  omega

theorem InColumns.width_piped {cells fields : List Text} {widths : List Nat}
    (h : InColumns cells widths fields) :
    Text.width (piped fields) = (widths.map (· + 3)).sum + 1 := by
  induction h with
  | nil => rfl
  | @cons cell field width cells fields widths hfield _ ih =>
    rw [piped_cons, hfield.width_append, ih, List.map_cons, List.sum_cons]
    omega

def delimiterCells (alignments : List Alignment) (first : Nat) : List Nat → List Text
  | [] => []
  | width :: widths =>
    delimiterCell (alignmentOf alignments first) width ::
      delimiterCells alignments (first + 1) widths

theorem delimiterLine_eq_piped (alignments : List Alignment) (widths : List Nat) :
    delimiterLine alignments widths = piped (delimiterCells alignments 0 widths) := by
  have hfrom : ∀ first, ((widths.zipIdx first).flatMap fun numbered =>
      '|' :: delimiterCell (alignmentOf alignments numbered.2) numbered.1) ++ ['|'] =
        piped (delimiterCells alignments first widths) := by
    induction widths with
    | nil => exact fun first => rfl
    | cons width widths ih =>
      intro first
      rw [delimiterCells, piped_cons, ← ih (first + 1)]
      simp
  exact hfrom 0

theorem length_delimiterCell (a : Alignment) (width : Nat) :
    (delimiterCell a width).length = width + 2 := by
  cases a <;> simp [delimiterCell]

theorem forall₂_delimiterCells (alignments : List Alignment) (first : Nat) (widths : List Nat) :
    List.Forall₂ (fun delimiter width => delimiter.length = width + 2)
      (delimiterCells alignments first widths) widths := by
  induction widths generalizing first with
  | nil => exact .nil
  | cons width widths ih => exact .cons (length_delimiterCell _ width) (ih (first + 1))

theorem mem_delimiterCell {a : Alignment} {width : Nat} {c : Char} (h : c ∈ delimiterCell a width) :
    c = '-' ∨ c = ':' := by
  cases a <;> simp [delimiterCell] at h <;> tauto

theorem mem_delimiterCells {alignments : List Alignment} {first : Nat} {widths : List Nat}
    {delimiter : Text} (h : delimiter ∈ delimiterCells alignments first widths) :
    ∃ a width, delimiter = delimiterCell a width := by
  induction widths generalizing first with
  | nil => cases h
  | cons width widths ih =>
    rcases List.mem_cons.mp h with rfl | h
    · exact ⟨_, _, rfl⟩
    · exact ih h

theorem length_delimiters (alignments : List Alignment) (first : Nat) (widths : List Nat) :
    (piped (delimiterCells alignments first widths)).length = (widths.map (· + 3)).sum + 1 := by
  induction widths generalizing first with
  | nil => rfl
  | cons width widths ih =>
    rw [delimiterCells, piped_cons, List.length_cons, List.length_append, length_delimiterCell, ih,
      List.map_cons, List.sum_cons]
    omega

theorem width_delimiters (alignments : List Alignment) (widths : List Nat) :
    Text.width (piped (delimiterCells alignments 0 widths)) = (widths.map (· + 3)).sum + 1 := by
  have hascii : ∀ c ∈ piped (delimiterCells alignments 0 widths), c.toNat < 128 ∧ c ≠ '\n' := by
    intro c hc
    simp only [piped, List.mem_append, List.mem_flatMap, List.mem_cons, List.not_mem_nil,
      or_false] at hc
    have hsigns : c = '|' ∨ c = '-' ∨ c = ':' := by
      rcases hc with ⟨delimiter, hdelimiter, hpipe | hc⟩ | hpipe
      · exact .inl hpipe
      · obtain ⟨a, width, rfl⟩ := mem_delimiterCells hdelimiter
        exact .inr (mem_delimiterCell hc)
      · exact .inl hpipe
    rcases hsigns with rfl | rfl | rfl <;> decide
  rw [Text.width, Text.widthFrom_of_ascii hascii (by simp), length_delimiters]

theorem isGreatest_foldl_max (xs : List Nat) (n : Nat) :
    IsGreatest {w | w = n ∨ w ∈ xs} (xs.foldl max n) := by
  induction xs generalizing n with
  | nil => exact ⟨.inl rfl, fun w hw => by simpa using hw.elim Nat.le_of_eq (by simp)⟩
  | cons x xs ih =>
    obtain ⟨hmem, hbound⟩ := ih (max n x)
    rw [List.foldl_cons]
    constructor
    · rcases hmem with hmem | hmem
      · rcases Nat.le_total n x with hle | hle
        · exact .inr (by rw [hmem, Nat.max_eq_right hle]; exact List.mem_cons_self)
        · exact .inl (by rw [hmem, Nat.max_eq_left hle])
      · exact .inr (List.mem_cons_of_mem x hmem)
    · intro w hw
      have hfirst := hbound (.inl rfl)
      rcases hw with rfl | hw
      · omega
      · rcases List.mem_cons.mp hw with rfl | hw
        · omega
        · exact hbound (.inr hw)

/-- The widths that a column has to have room for: those of its cells, and one column between two
colons. -/
def extents (alignments : List Alignment) (rows : List Row) (column : Nat) : Set Nat :=
  {w | (∃ row ∈ rows, ∃ cell ∈ row[column]?, Text.width cell = w) ∨
    alignmentOf alignments column = .center ∧ w = 1}

theorem columnWidth_isGreatest (alignments : List Alignment) {rows : List Row} (hne : rows ≠ [])
    {column : Nat} (hrows : ∀ row ∈ rows, column < row.length) :
    IsGreatest (extents alignments rows column) (columnWidth alignments rows column) := by
  generalize hlist : rows.map (fun row => Text.width ((row[column]?).getD [])) = extent
  have hcells : ∀ w, w ∈ extent ↔ ∃ row ∈ rows, ∃ cell ∈ row[column]?, Text.width cell = w := by
    intro w
    rw [← hlist, List.mem_map]
    constructor
    · rintro ⟨row, hrow, rfl⟩
      have hlt := hrows row hrow
      have hcell : row[column]? = some row[column] := List.getElem?_eq_getElem hlt
      exact ⟨row, hrow, row[column], hcell, by rw [hcell]; rfl⟩
    · rintro ⟨row, hrow, cell, hcell, rfl⟩
      exact ⟨row, hrow, by rw [Option.mem_def.mp hcell]; rfl⟩
  obtain ⟨hzero, hbound⟩ := isGreatest_foldl_max extent 0
  have hwidest : extent.foldl max 0 ∈ extent := by
    rcases hzero with hzero | hmem
    · -- the first row has a cell in the column, which is then of no width itself
      obtain ⟨w, hw⟩ : ∃ w, w ∈ extent := by
        rw [← hlist]
        exact List.exists_mem_of_ne_nil _ (by simpa using hne)
      have hle := hbound (.inr hw)
      rw [hzero] at hle ⊢
      rwa [Nat.le_zero.mp hle] at hw
    · exact hmem
  by_cases hcenter : alignmentOf alignments column = .center
  · have hwidth : columnWidth alignments rows column = max (extent.foldl max 0) 1 := by
      simp [columnWidth, hcenter, hlist]
    rw [hwidth]
    constructor
    · rcases Nat.le_total (extent.foldl max 0) 1 with hle | hle
      · exact .inr ⟨hcenter, Nat.max_eq_right hle⟩
      · exact .inl (by rw [Nat.max_eq_left hle]; exact (hcells _).mp hwidest)
    · rintro w (hw | ⟨-, rfl⟩)
      · have hle := hbound (.inr ((hcells w).mpr hw))
        omega
      · exact Nat.le_max_right _ _
  · have hwidth : columnWidth alignments rows column = extent.foldl max 0 := by
      simp only [columnWidth, hlist]
    rw [hwidth]
    constructor
    · exact .inl ((hcells _).mp hwidest)
    · rintro w (hw | ⟨hcontra, -⟩)
      · exact hbound (.inr ((hcells w).mpr hw))
      · exact absurd hcontra hcenter

theorem width_le_columnWidths (alignments : List Alignment) {columns : Nat} {rows : List Row}
    (hrows : ∀ row ∈ rows, row.length = columns) {row : Row} (hrow : row ∈ rows) :
    List.Forall₂ (fun cell width => Text.width cell ≤ width) row
      (columnWidths alignments columns rows) := by
  rw [List.forall₂_iff_get]
  refine ⟨by simp [columnWidths, hrows row hrow], ?_⟩
  intro j hcell hwidth
  have hroom : ∀ other ∈ rows, j < other.length := by
    intro other hother
    rw [hrows other hother, ← hrows row hrow]
    exact hcell
  have hgreatest := columnWidth_isGreatest alignments (List.ne_nil_of_mem hrow) hroom
  have hle := hgreatest.2 (.inl ⟨row, hrow, row[j], List.getElem?_eq_getElem hcell, rfl⟩)
  simpa [columnWidths] using hle

/-- The lines of a table whose columns line up: each column is as wide as its widest cell, each cell
stands in a field of its column, and the delimiters and every row take the same columns. -/
structure LinedUp (alignments : List Alignment) (rows : List Row) (widths : List Nat)
    (delimiters : List Text) (lines : List (List Text)) : Prop where
  widest : ∀ j w, w ∈ widths[j]? → IsGreatest (extents alignments rows j) w
  cells : List.Forall₂ (fun row fields => InColumns row widths fields) rows lines
  rules : List.Forall₂ (fun delimiter w => delimiter.length = w + 2) delimiters widths
  even : ∀ fields ∈ delimiters :: lines,
    Text.width (piped fields) = (widths.map (· + 3)).sum + 1

theorem linedUp_columnWidths (alignments : List Alignment) {columns : Nat} {rows : List Row}
    (hne : rows ≠ []) (hrows : ∀ row ∈ rows, row.length = columns) :
    LinedUp alignments rows (columnWidths alignments columns rows)
      (delimiterCells alignments 0 (columnWidths alignments columns rows))
      (rows.map fun row => List.zipWith paddedCell row (columnWidths alignments columns rows)) := by
  have hfields : ∀ row ∈ rows, InColumns row (columnWidths alignments columns rows)
      (List.zipWith paddedCell row (columnWidths alignments columns rows)) :=
    fun row hrow => inColumns_zipWith (width_le_columnWidths alignments hrows hrow)
  refine ⟨?_, ?_, forall₂_delimiterCells alignments 0 _, ?_⟩
  · intro j w hw
    rw [columnWidths, List.getElem?_map] at hw
    obtain ⟨column, hcolumn, rfl⟩ := Option.map_eq_some_iff.mp hw
    obtain ⟨hlt, rfl⟩ := List.getElem?_eq_some_iff.mp hcolumn
    rw [List.getElem_range]
    apply columnWidth_isGreatest alignments hne
    intro row hrow
    rw [hrows row hrow]
    simpa using hlt
  · rw [List.forall₂_map_right_iff, List.forall₂_same]
    exact hfields
  · intro fields hmem
    rcases List.mem_cons.mp hmem with rfl | hmem
    · exact width_delimiters alignments _
    · obtain ⟨row, hrow, rfl⟩ := List.mem_map.mp hmem
      exact (hfields row hrow).width_piped

/-- A table that is accepted is its header row, one row of delimiters and the rows of its body, in
columns that line up, whatever alignments are given. -/
theorem table_columns_line_up {alignments : List Alignment} {l : Text} {cs : List Node} {out : Text}
    (h : table (.mk (.table alignments) l cs) = .ok out) :
    ∃ header rows widths delimiters first lines, TableMarkup cs header rows ∧
      LinedUp alignments ((header :: rows).map (·.map escapePipes)) widths delimiters
        (first :: lines) ∧
      out = unlines (piped first :: piped delimiters :: lines.map piped) ++ ['\n'] := by
  obtain ⟨header, rows, hmarkup, hlengths, rfl⟩ := table_of_markup h
  have hcells : ∀ row ∈ (header :: rows).map (·.map escapePipes), row.length = header.length := by
    intro row hrow
    obtain ⟨markup, hmem, rfl⟩ := List.mem_map.mp hrow
    rcases List.mem_cons.mp hmem with rfl | hmem
    · exact List.length_map _
    · rw [List.length_map, hlengths markup hmem]
  refine ⟨header, rows, _, _, _, _, hmarkup, linedUp_columnWidths alignments (by simp) hcells, ?_⟩
  simp only [tableLines, rowLine_eq_piped, delimiterLine_eq_piped, List.map_cons, List.map_map,
    Function.comp_def]

/-- A table with an empty column that is centred, and one with wide characters and an escaped pipe
for which no alignment is given. -/
def unevenTable : List Node :=
  [.branch .tableHead [.branch .tableRow
    [.branch .tableCell [], .branch .tableCell [.leaf .code "a|b".toList]]],
  .branch .tableBody [.branch .tableRow
    [.branch .tableCell [], .branch .tableCell [.ofText "日本語".toList]]]]

theorem table_columns_line_up_unevenTable :
    table (.mk (.table [.center]) [] unevenTable) =
        .ok "|   | \x60a\\|b\x60 |\n|:-:|--------|\n|   | 日本語 |\n\n".toList ∧
      ∃ header rows widths delimiters first lines, TableMarkup unevenTable header rows ∧
        LinedUp [.center] ((header :: rows).map (·.map escapePipes)) widths delimiters
          (first :: lines) ∧
        "|   | \x60a\\|b\x60 |\n|:-:|--------|\n|   | 日本語 |\n\n".toList =
          unlines (piped first :: piped delimiters :: lines.map piped) ++ ['\n'] := by
  have htable : table (.mk (.table [.center]) [] unevenTable) =
      .ok "|   | \x60a\\|b\x60 |\n|:-:|--------|\n|   | 日本語 |\n\n".toList := by
    decide +kernel
  exact ⟨htable, table_columns_line_up htable⟩

end Layout
end CanonMark
