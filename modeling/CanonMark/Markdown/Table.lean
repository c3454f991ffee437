import CanonMark.Document.Node
import CanonMark.Markdown.Content
import CanonMark.Markdown.Line
import CanonMark.Text.Punctuation

/-! # Table lines

A pipe with a backslash directly before it is part of a cell.
-/
namespace CanonMark.Markdown

def extendFirst (c : Char) : List Text → List Text
  | [] => [[c]]
  | piece :: pieces => (c :: piece) :: pieces

/-- The pieces between the pipes that part cells; `escaped` tells that a backslash stands before. -/
def splitAtPipes (escaped : Bool) : Text → List Text
  | [] => [[]]
  | c :: t =>
    if c == '|' && !escaped then [] :: splitAtPipes false t
    else extendFirst c (splitAtPipes (c == '\\') t)

/-- The pieces between the pipes that are not escaped; a backslash that is escaped itself escapes
nothing. -/
def splitAtFreePipes : Text → List Text
  | [] => [[]]
  | '\\' :: c :: t =>
    if Text.isAsciiPunctuation c then extendFirst '\\' (extendFirst c (splitAtFreePipes t))
    else extendFirst '\\' (splitAtFreePipes (c :: t))
  | c :: t => if c == '|' then [] :: splitAtFreePipes t else extendFirst c (splitAtFreePipes t)

/-- How many columns a line has as the header of a table, given the pieces between its pipes; a line
without a pipe has none. -/
def columnCount (pieces : List Text) : Nat :=
  let pipes := pieces.length - 1
  if pipes = 0 then 0
  else
    (if pieces.head?.all isBlankText then pipes - 1 else pipes) +
      (if pieces.getLast?.all isBlankText then 0 else 1)

def trimSpacing (t : Text) : Text := Text.dropEndWhile Text.isSpacing (t.dropWhile Text.isSpacing)

def cellContent : Text → Content
  | [] => []
  | '\\' :: '|' :: t => .pipe :: cellContent t
  | c :: t => .char c :: cellContent t

/-- The cells of a line. The first may have a pipe before it and the last one behind it. -/
def cells (t : Text) : List Content :=
  let t := t.dropWhile Text.isSpacing
  let pieces := splitAtPipes false (if t.head? == some '|' then t.drop 1 else t)
  let kept := if pieces.getLast?.all isBlankText then pieces.dropLast else pieces
  kept.map fun piece => cellContent (trimSpacing piece)

def fitRow (columns : Nat) (row : List Content) : List Content :=
  row.take columns ++ List.replicate (columns - row.length) []

structure Delimiters where
  done : List Alignment
  alignment : Alignment
  fresh : Bool
  hyphen : Bool
  deriving DecidableEq, Repr

def Delimiters.step? (d : Delimiters) (c : Char) : Option Delimiters :=
  if c == ' ' then some d
  else if c == ':' then
    let alignment :=
      match d.fresh, d.alignment with
      | true, .none => .left
      | false, .left => .center
      | false, .none => .right
      | _, a => a
    some { d with alignment, fresh := false }
  else if c == '-' then some { d with fresh := false, hyphen := true }
  else if c == '|' && d.hyphen then some ⟨d.alignment :: d.done, .none, true, false⟩
  else none

/-- The alignments that a delimiter row gives. It needs a pipe, and a hyphen in each column. -/
def delimiterRow? (t : Text) : Option (List Alignment) :=
  let body := if t.head? == some '|' then t.drop 1 else t
  if !t.any (· == '|') || !t.any (· == '-') then none
  else
    (body.foldlM Delimiters.step? ⟨[], .none, true, false⟩).map fun d =>
      (if d.fresh then d.done else d.alignment :: d.done).reverse

end CanonMark.Markdown
