import CanonMark.Layout.Mark
import CanonMark.Text.Width

/-! # Tables

Every column is as wide as its widest cell, measured on the markup that is written.
-/
namespace CanonMark.Layout

abbrev Row := List Text

def compileCell : Node → Except LayoutError Text
  | .mk .tableCell _ cs => Text.replace '|' "\\|".toList <$> inlineText cs
  | _ => .error (.invalidTable .rowContent)

def compileRow (columns index : Nat) : Node → Except LayoutError Row
  | .mk .tableRow _ cells =>
    if cells.length < columns then .error (.rowTooShort index columns cells.length)
    else if cells.length > columns then .error (.rowTooLong index columns cells.length)
    else cells.mapM compileCell
  | _ => .error (.invalidTable .sectionContent)

def compileRows (columns index : Nat) : List Node → Except LayoutError (List Row)
  | [] => .ok []
  | row :: rows => do
    let cells ← compileRow columns index row
    let more ← compileRows columns (index + 1) rows
    pure (cells :: more)

/-- A column without an entry of its own has no alignment. -/
def alignmentOf (alignments : List Alignment) (column : Nat) : Alignment :=
  (alignments[column]?).getD .none

/-- The width of a column: that of its widest cell, and at least one where the delimiter has a
colon at both ends. -/
def columnWidth (alignments : List Alignment) (rows : List Row) (column : Nat) : Nat :=
  let widest := (rows.map fun row => Text.width ((row[column]?).getD [])).foldl max 0
  match alignmentOf alignments column with
  | .center => max widest 1
  | _ => widest

def writeCell (cell : Text) (columnWidth : Nat) : Text :=
  "| ".toList ++ cell ++ List.replicate (columnWidth - Text.width cell + 1) ' '

def writeRow (cells : Row) (widths : List Nat) : Text :=
  ((cells.zip widths).flatMap fun (cell, columnWidth) => writeCell cell columnWidth) ++ "|\n".toList

def delimiterCell (alignment : Alignment) (columnWidth : Nat) : Text :=
  match alignment with
  | .none => List.replicate (columnWidth + 2) '-'
  | .left => ':' :: List.replicate (columnWidth + 1) '-'
  | .right => List.replicate (columnWidth + 1) '-' ++ [':']
  | .center => ':' :: List.replicate columnWidth '-' ++ [':']

def delimiterRow (alignments : List Alignment) (widths : List Nat) : Text :=
  (widths.zipIdx.flatMap fun (columnWidth, column) =>
    '|' :: delimiterCell (alignmentOf alignments column) columnWidth) ++ "|\n".toList

def writeTable (alignments : List Alignment) (columns : Nat) (header : Row) (rows : List Row) :
    Text :=
  let widths := (List.range columns).map (columnWidth alignments (header :: rows))
  writeRow header widths ++ delimiterRow alignments widths ++
    (rows.flatMap fun row => writeRow row widths) ++ ['\n']

def tableParts (children : List Node) : Except LayoutError (Node × List Node) :=
  match children with
  | [] => .error (.invalidTable .missingHead)
  | [_] => .error (.invalidTable .missingBody)
  | [head, body] =>
    if head.kind != .tableHead then .error (.invalidTable .firstNotHead)
    else if body.kind != .tableBody then .error (.invalidTable .missingBody)
    else
      match head.children with
      | [row] =>
        if row.kind != .tableRow then .error (.invalidTable .headRows)
        else if row.children.isEmpty then .error (.invalidTable .noColumns)
        else if body.children.isEmpty then .error (.invalidTable .noRows)
        else .ok (row, body.children)
      | _ => .error (.invalidTable .headRows)
  | _ => .error (.invalidTable .unexpectedChildren)

def alignmentsOf : Kind → List Alignment
  | .table alignments => alignments
  | _ => []

/-- A table with a blank line behind it. A node of another kind counts as a table without
alignments. -/
def table (n : Node) : Except LayoutError Text := do
  let (headerRow, bodyRows) ← tableParts n.children
  let columns := headerRow.children.length
  let header ← compileRow columns 0 headerRow
  let rows ← compileRows columns 1 bodyRows
  pure (writeTable (alignmentsOf n.kind) columns header rows)

end CanonMark.Layout
