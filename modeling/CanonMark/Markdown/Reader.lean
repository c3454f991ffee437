import CanonMark.Document.Assembly
import CanonMark.Markdown.Block
import CanonMark.Markdown.Inline
import CanonMark.Text.Utf8

/-! # Reading documents

A source gives events, and the events give a document. The paragraphs directly in the items of a
tight list have no events of their own.
-/
namespace CanonMark.Markdown

mutual
def spanEvents : Span → List Event
  | .text t => [.text t]
  | .softBreak => [.softBreak]
  | .hardBreak _ => [.hardBreak]
  | .code t => [.code t]
  | .html t => [.inlineHtml t]
  | .emphasis content => .start .emphasis :: spansEvents content ++ [.finish]
  | .strong content => .start .strong :: spansEvents content ++ [.finish]
  | .link destination title content =>
    .start (.link destination title) :: spansEvents content ++ [.finish]
  | .image destination title content =>
    .start (.image destination title) :: spansEvents content ++ [.finish]

def spansEvents : List Span → List Event
  | [] => []
  | s :: ss => spanEvents s ++ spansEvents ss
end

def enclosed (tag : Tag) (content : List Event) : List Event :=
  .start tag :: content ++ [.finish]

def textEvents (t : Text) : List Event := if t.isEmpty then [] else [.text t]

/-- The events of a part of a document, and the allowance that is left behind it. -/
abbrev Report := List Event × Nat

namespace Report

def enclose (tag : Tag) (r : Report) : Report := (enclosed tag r.1, r.2)

def andThen (r : Report) (next : Nat → Report) : Report :=
  let (events, allowance) := next r.2
  (r.1 ++ events, allowance)

def all (report : α → Nat → Report) (parts : List α) (allowance : Nat) : Report :=
  parts.foldl (fun r part => r.andThen (report part)) ([], allowance)

end Report

def inlineReport (definitions : List Definition) (content : Content) (allowance : Nat) : Report :=
  let (found, left) := spans definitions allowance content
  (spansEvents found, left)

def rowReport (definitions : List Definition) (tag : Tag) (row : List Content) (allowance : Nat) :
    Report :=
  (Report.all (fun cell n => (inlineReport definitions cell n).enclose .tableCell) row
    allowance).enclose tag

mutual
/-- The events of a block; `tight` says that it stands directly in an item of a tight list. -/
def blockReport (definitions : List Definition) (tight : Bool) (allowance : Nat) : Block → Report
  | .paragraph content =>
    let inline := inlineReport definitions content allowance
    if tight then inline else inline.enclose .paragraph
  | .heading level content =>
    (inlineReport definitions content allowance).enclose (.heading level)
  | .fenced length info code => (enclosed (.fencedCode length info) (textEvents code), allowance)
  | .indented code => (enclosed .indentedCode (textEvents code), allowance)
  | .html margin literal => (enclosed .htmlBlock (textEvents margin ++ [.html literal]), allowance)
  | .table alignments header rows =>
    ((rowReport definitions .tableHead header allowance).andThen
      (Report.all (rowReport definitions .tableRow) rows)).enclose (.table alignments)
  | .rule => ([.rule], allowance)
  | .quote content => (blocksReport definitions false allowance content).enclose .quote
  | .list ordered tight items =>
    (blocksReport definitions tight allowance items).enclose (.list ordered)
  | .item content => (blocksReport definitions tight allowance content).enclose .item

def blocksReport (definitions : List Definition) (tight : Bool) (allowance : Nat) :
    List Block → Report
  | [] => ([], allowance)
  | b :: bs =>
    let (events, left) := blockReport definitions tight allowance b
    let (further, left) := blocksReport definitions tight left bs
    (events ++ further, left)
end

/-- Definitions may add as many bytes as the source has, and this many in any case. -/
def leastAllowance : Nat := 100000

def events (source : Text) : List Event :=
  let (found, definitions) := blocks source
  (blocksReport definitions false (max source.byteLength leastAllowance) found).1

def parse (source : Text) : Node := .ofEvents (events source)

def parseBytes (source : Bytes) : Except Utf8.Fault Node := parse <$> Utf8.decode source

end CanonMark.Markdown
