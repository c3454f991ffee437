import CanonMark.Proofs.Layout.Columns
import CanonMark.Proofs.Markdown.Leaves
import Mathlib.Data.List.DropRight

/-! # Tables read back

Each pipe in a cell has a backslash directly before it, and the pipe behind a cell has a space. So
a row is cut into the fields it was written from, even where a cell ends in a backslash, and the
cells are found in them. A column of no width has a delimiter all the same.
-/
namespace CanonMark.Layout

open Markdown (splitAtPipes extendFirst_eq prepend prepend_append prepend_nil splitAtPipes_ne_nil)

def trimSpaces (t : Text) : Text := (t.dropWhile (· == ' ')).rdropWhile (· == ' ')

/-- A pipe in the place of each that has a backslash before it. -/
def unescapePipes : Text → Text
  | [] => []
  | '\\' :: '|' :: t => '|' :: unescapePipes t
  | c :: t => c :: unescapePipes t

def readCell (field : Text) : Text := unescapePipes (trimSpaces field)

def readDelimiter? (field : Text) : Option Alignment :=
  let left := field.head? == some ':'
  let behind := if left then field.tail else field
  let right := behind.getLast? == some ':'
  let dashes := if right then behind.dropLast else behind
  if !dashes.isEmpty && dashes.all (· == '-') then
    some (match left, right with
      | false, false => .none
      | true, false => .left
      | false, true => .right
      | true, true => .center)
  else none

/-- A line is cut at its pipes into these fields, with nothing before the first pipe and nothing
behind the last. -/
def CutInto (line : Text) (fields : List Text) : Prop :=
  splitAtPipes false line = [] :: (fields ++ [[]])

theorem escapePipes_cons (c : Char) (t : Text) :
    escapePipes (c :: t) = (if c = '|' then ['\\', '|'] else [c]) ++ escapePipes t := rfl

theorem escapePipes_append (s t : Text) :
    escapePipes (s ++ t) = escapePipes s ++ escapePipes t := by
  simp [escapePipes, Text.replace]

theorem unescapePipes_cons {c : Char} {t : Text} (h : c = '\\' → t.head? ≠ some '|') :
    unescapePipes (c :: t) = c :: unescapePipes t := by
  rw [unescapePipes]
  rintro u rfl rfl
  exact h rfl rfl

/-- No markup begins with a pipe once its pipes are escaped, so what a backslash of the markup
escaped stays as it is. -/
theorem head?_escapePipes (t : Text) : (escapePipes t).head? ≠ some '|' := by
  cases t with
  | nil => simp [escapePipes, Text.replace]
  | cons c t =>
    rw [escapePipes_cons]
    split
    · simp
    · next hc => simpa using hc

theorem unescapePipes_escapePipes (t : Text) : unescapePipes (escapePipes t) = t := by
  induction t with
  | nil => rfl
  | cons c t ih =>
    rw [escapePipes_cons]
    by_cases hc : c = '|'
    · rw [if_pos hc, List.cons_append, List.singleton_append, unescapePipes, ih, hc]
    · rw [if_neg hc, List.singleton_append, unescapePipes_cons fun _ => head?_escapePipes t, ih]

theorem dropWhile_escapePipes (t : Text) :
    (escapePipes t).dropWhile (· == ' ') = escapePipes (t.dropWhile (· == ' ')) := by
  induction t with
  | nil => rfl
  | cons c t ih =>
    rw [escapePipes_cons]
    by_cases hspace : c = ' '
    · subst hspace
      simpa using ih
    · by_cases hpipe : c = '|'
      · simp [hpipe, escapePipes_cons]
      · simp [hspace, hpipe, escapePipes_cons]

theorem escapePipes_concat (t : Text) (c : Char) :
    ∃ s, escapePipes (t ++ [c]) = s ++ [c] ∧ (c ≠ '|' → s = escapePipes t) := by
  rw [escapePipes_append, escapePipes_cons]
  by_cases hc : c = '|'
  · refine ⟨escapePipes t ++ ['\\'], ?_, fun hne => absurd hc hne⟩
    simp [hc, escapePipes, Text.replace]
  · refine ⟨escapePipes t, ?_, fun _ => rfl⟩
    simp [hc, escapePipes, Text.replace]

theorem rdropWhile_escapePipes (t : Text) :
    (escapePipes t).rdropWhile (· == ' ') = escapePipes (t.rdropWhile (· == ' ')) := by
  induction t using List.reverseRecOn with
  | nil => rfl
  | append_singleton t c ih =>
    obtain ⟨s, hs, hfront⟩ := escapePipes_concat t c
    rw [hs, List.rdropWhile_concat, List.rdropWhile_concat]
    by_cases hspace : c = ' '
    · subst hspace
      rw [if_pos (by decide), if_pos (by decide), hfront (by decide), ih]
    · have hkept : ¬ (c == ' ') = true := by simpa using hspace
      rw [if_neg hkept, if_neg hkept, hs]

theorem trimSpaces_escapePipes (t : Text) :
    trimSpaces (escapePipes t) = escapePipes (trimSpaces t) := by
  rw [trimSpaces, dropWhile_escapePipes, rdropWhile_escapePipes, trimSpaces]

theorem trimSpaces_padding (t : Text) (n : Nat) :
    trimSpaces (' ' :: (t ++ List.replicate n ' ')) = trimSpaces t := by
  have hskip : (' ' :: (t ++ List.replicate n ' ')).dropWhile (· == ' ') =
      (t ++ List.replicate n ' ').dropWhile (· == ' ') := rfl
  rw [trimSpaces, hskip, List.dropWhile_append, trimSpaces]
  split
  · next hblank =>
    -- nothing but spaces, which go from the front before the padding can go from the end
    rw [List.isEmpty_iff.mp hblank, List.dropWhile_eq_nil_iff.mpr (by simp)]
  · simp [List.rdropWhile]

theorem readCell_paddedCell (t : Text) (width : Nat) :
    readCell (paddedCell (escapePipes t) width) = trimSpaces t := by
  rw [readCell, paddedCell, trimSpaces_padding, trimSpaces_escapePipes, unescapePipes_escapePipes]

theorem splitAtPipes_cons {c : Char} (hc : c ≠ '|') (escaped : Bool) (t : Text) :
    splitAtPipes escaped (c :: t) = prepend [c] (splitAtPipes (c == '\\') t) := by
  rw [← extendFirst_eq]
  simp [splitAtPipes, hc]

theorem splitAtPipes_plain {s : Text} (hs : ∀ c ∈ s, c ≠ '|' ∧ c ≠ '\\') (t : Text) :
    splitAtPipes false (s ++ t) = prepend s (splitAtPipes false t) := by
  induction s with
  | nil => rw [List.nil_append, prepend_nil (splitAtPipes_ne_nil _ _)]
  | cons c s ih =>
    obtain ⟨hpipe, hslash⟩ := hs c (by simp)
    have hfree : (c == '\\') = false := by simpa using hslash
    rw [List.cons_append, splitAtPipes_cons hpipe, hfree, ih fun d hd => hs d (by simp [hd]),
      ← prepend_append, List.singleton_append]

theorem splitAtPipes_escapePipes (escaped : Bool) (s t : Text) :
    splitAtPipes escaped (escapePipes s ++ ' ' :: t) =
      prepend (escapePipes s ++ [' ']) (splitAtPipes false t) := by
  induction s generalizing escaped with
  | nil => exact splitAtPipes_cons (by decide) escaped t
  | cons c s ih =>
    rw [escapePipes_cons]
    by_cases hpipe : c = '|'
    · have hescaped : ∀ u, splitAtPipes true ('|' :: u) = prepend ['|'] (splitAtPipes false u) :=
        fun u => extendFirst_eq '|' _
      have hslash : ('\\' == '\\') = true := rfl
      rw [if_pos hpipe, List.append_assoc, List.cons_append, List.singleton_append,
        splitAtPipes_cons (by decide), hslash, hescaped, ih, ← prepend_append, ← prepend_append]
      simp
    · rw [if_neg hpipe, List.append_assoc, List.singleton_append, splitAtPipes_cons hpipe, ih,
        ← prepend_append, List.append_assoc]

/-- A field that the pipe behind it ends, and no pipe before. -/
def Uncut (field : Text) : Prop :=
  ∀ t, splitAtPipes false (field ++ '|' :: t) = field :: splitAtPipes false t

theorem prepend_pipe (field t : Text) :
    prepend field (splitAtPipes false ('|' :: t)) = field :: splitAtPipes false t := by
  simp [splitAtPipes, prepend]

theorem uncut_delimiterCell (a : Alignment) (width : Nat) : Uncut (delimiterCell a width) := by
  intro t
  have hplain : ∀ c ∈ delimiterCell a width, c ≠ '|' ∧ c ≠ '\\' := by
    intro c hc
    rcases mem_delimiterCell hc with rfl | rfl <;> decide
  rw [splitAtPipes_plain hplain, prepend_pipe]

theorem uncut_paddedCell (t : Text) (width : Nat) : Uncut (paddedCell (escapePipes t) width) := by
  intro u
  rw [paddedCell]
  generalize width - Text.width (escapePipes t) = padding
  have hspaces : ∀ c ∈ List.replicate padding ' ', c ≠ '|' ∧ c ≠ '\\' := by
    intro c hc
    rw [List.eq_of_mem_replicate hc]
    decide
  have hshape : ' ' :: (escapePipes t ++ List.replicate (padding + 1) ' ') ++ '|' :: u =
      ' ' :: (escapePipes t ++ ' ' :: (List.replicate padding ' ' ++ '|' :: u)) := by
    simp [List.replicate_succ]
  rw [hshape, splitAtPipes_cons (by decide), splitAtPipes_escapePipes,
    splitAtPipes_plain hspaces, ← prepend_append, ← prepend_append, prepend_pipe]
  simp [List.replicate_succ]

theorem cutInto_piped {fields : List Text} (h : ∀ field ∈ fields, Uncut field) :
    CutInto (piped fields) fields := by
  induction fields with
  | nil => rfl
  | cons field fields ih =>
    obtain ⟨t, ht⟩ : ∃ t, piped fields = '|' :: t := by
      cases fields with
      | nil => exact ⟨_, rfl⟩
      | cons next fields => exact ⟨_, piped_cons next fields⟩
    have hpipe : ∀ u, splitAtPipes false ('|' :: u) = [] :: splitAtPipes false u := by
      intro u
      simp [splitAtPipes]
    have hrest := ih fun other hother => h other (by simp [hother])
    rw [CutInto, ht, hpipe] at hrest
    rw [CutInto, piped_cons, hpipe, ht, h field (by simp) t, (List.cons.inj hrest).2]
    rfl

theorem readDelimiter?_delimiterCell {a : Alignment} {width : Nat} (hw : a = .center → 1 ≤ width) :
    readDelimiter? (delimiterCell a width) = some a := by
  cases a with
  | none => simp [readDelimiter?, delimiterCell, List.head?_replicate, List.getLast?_replicate]
  | left => simp [readDelimiter?, delimiterCell, List.getLast?_replicate]
  | right => simp [readDelimiter?, delimiterCell, List.head?_replicate]
  | center =>
    obtain ⟨k, rfl⟩ := Nat.exists_eq_add_of_le' (hw rfl)
    simp [readDelimiter?, delimiterCell]

theorem map_readDelimiter? (alignments : List Alignment) (rows : List Row) (first columns : Nat) :
    (delimiterCells alignments first
        ((List.range' first columns).map (columnWidth alignments rows))).map readDelimiter? =
      (List.range' first columns).map fun column => some (alignmentOf alignments column) := by
  induction columns generalizing first with
  | zero => rfl
  | succ columns ih =>
    rw [List.range'_succ, List.map_cons, delimiterCells, List.map_cons, ih (first + 1),
      readDelimiter?_delimiterCell fun hcenter => Markdown.columnWidth_center hcenter rows,
      List.map_cons]

def ReadsAs (row : List Text) (line : Text) : Prop :=
  ∃ fields, CutInto line fields ∧ fields.map readCell = row.map trimSpaces

theorem uncut_fields (row : List Text) (widths : List Nat) :
    ∀ field ∈ List.zipWith paddedCell (row.map escapePipes) widths, Uncut field := by
  intro field hfield
  rw [← List.map_uncurry_zip_eq_zipWith] at hfield
  obtain ⟨⟨cell, width⟩, hpair, rfl⟩ := List.mem_map.mp hfield
  obtain ⟨t, -, rfl⟩ := List.mem_map.mp (List.of_mem_zip hpair).1
  exact uncut_paddedCell t width

theorem map_readCell_fields {row : List Text} {widths : List Nat}
    (h : row.length = widths.length) :
    (List.zipWith paddedCell (row.map escapePipes) widths).map readCell = row.map trimSpaces := by
  induction row generalizing widths with
  | nil => rfl
  | cons t row ih =>
    cases widths with
    | nil => cases h
    | cons width widths =>
      rw [List.map_cons, List.zipWith_cons_cons, List.map_cons, readCell_paddedCell,
        ih (Nat.succ.inj h), List.map_cons]

theorem readsAs_rowLine {row : List Text} {widths : List Nat} (h : row.length = widths.length) :
    ReadsAs row (rowLine (row.map escapePipes) widths) := by
  rw [rowLine_eq_piped]
  exact ⟨_, cutInto_piped (uncut_fields row widths), map_readCell_fields h⟩

/-- In the lines of a table that is accepted, every cell is found in the field of its column, and
the alignment of every column in its delimiter. -/
theorem table_reads_back {alignments : List Alignment} {l : Text} {cs : List Node} {out : Text}
    (h : table (.mk (.table alignments) l cs) = .ok out) :
    ∃ header rows first delimiters lines, TableMarkup cs header rows ∧
      (∀ row ∈ rows, row.length = header.length) ∧
      out = unlines (first :: delimiters :: lines) ++ ['\n'] ∧
      List.Forall₂ ReadsAs (header :: rows) (first :: lines) ∧
      ∃ fields, CutInto delimiters fields ∧ fields.map readDelimiter? =
        (List.range header.length).map fun column => some (alignmentOf alignments column) := by
  obtain ⟨header, rows, hmarkup, hlengths, rfl⟩ := table_of_markup h
  refine ⟨header, rows, _, _, _, hmarkup, hlengths, rfl, ?_, ?_⟩
  · have hwidths : ∀ rs, (columnWidths alignments header.length rs).length = header.length := by
      simp [columnWidths]
    refine .cons (readsAs_rowLine (hwidths _).symm) ?_
    rw [List.map_map, List.forall₂_map_right_iff, List.forall₂_same]
    intro row hrow
    exact readsAs_rowLine ((hlengths row hrow).trans (hwidths _).symm)
  · have huncut : ∀ widths, ∀ field ∈ delimiterCells alignments 0 widths, Uncut field := by
      intro widths field hfield
      obtain ⟨a, width, rfl⟩ := mem_delimiterCells hfield
      exact uncut_delimiterCell a width
    rw [delimiterLine_eq_piped]
    refine ⟨_, cutInto_piped (huncut _), ?_⟩
    rw [columnWidths, List.range_eq_range']
    exact map_readDelimiter? alignments _ 0 header.length

/-- A table with a backslash and a pipe in code, a cell that ends in a backslash, and columns of no
width with and without an alignment. -/
def pipedTable : List Node :=
  [.branch .tableHead [.branch .tableRow [.branch .tableCell [],
    .branch .tableCell [.leaf .code "a\\|b".toList], .branch .tableCell []]],
  .branch .tableBody [.branch .tableRow [.branch .tableCell [],
    .branch .tableCell [.ofText " |\\".toList], .branch .tableCell []]]]

def pipedText : Text :=
  "|   | \x60a\\\\|b\x60 |  |\n|:-:|--------:|--|\n|   |  \\|\\\\   |  |\n\n".toList

theorem table_reads_back_pipedTable :
    table (.mk (.table [.center, .right]) [] pipedTable) = .ok pipedText ∧
      ∃ header rows first delimiters lines, TableMarkup pipedTable header rows ∧
        (∀ row ∈ rows, row.length = header.length) ∧
        pipedText = unlines (first :: delimiters :: lines) ++ ['\n'] ∧
        List.Forall₂ ReadsAs (header :: rows) (first :: lines) ∧
        ∃ fields, CutInto delimiters fields ∧ fields.map readDelimiter? =
          (List.range header.length).map fun j => some (alignmentOf [.center, .right] j) := by
  have htable : table (.mk (.table [.center, .right]) [] pipedTable) = .ok pipedText := by
    decide +kernel
  exact ⟨htable, table_reads_back htable⟩

end CanonMark.Layout
