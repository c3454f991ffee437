import CanonMark.Document.Node

/-! # Reading events

A reader reports a document as a flat sequence: a tag opens, content follows, the tag closes.
Nothing forces such a sequence to be balanced.
-/
namespace CanonMark

inductive Tag where
  | paragraph
  | heading (level : Nat)
  | quote
  | fencedCode (fenceLength : Nat) (info : Text)
  | indentedCode
  | htmlBlock
  | list (ordered : Bool)
  | item
  | table (alignments : List Alignment)
  | tableHead
  | tableRow
  | tableCell
  | emphasis
  | strong
  | link (destination title : Text)
  | image (destination title : Text)
  | extension (name : Text)
  deriving DecidableEq, Repr

def Tag.kind : Tag → Kind
  | .paragraph => .paragraph
  | .heading level => .heading level
  | .quote => .quote
  | .fencedCode fenceLength info => .codeBlock true fenceLength info
  | .indentedCode => .codeBlock false 0 []
  | .htmlBlock => .htmlBlock
  | .list ordered => .list ordered
  | .item => .item
  | .table alignments => .table alignments
  | .tableHead => .tableHead
  | .tableRow => .tableRow
  | .tableCell => .tableCell
  | .emphasis => .emphasis
  | .strong => .strong
  | .link destination title => .link destination title
  | .image destination title => .image destination title
  | .extension name => .extension name

inductive Event where
  | start (tag : Tag)
  | finish
  | text (content : Text)
  | softBreak
  | code (content : Text)
  | html (content : Text)
  | inlineHtml (content : Text)
  | hardBreak
  | rule
  | extension (name content : Text)
  deriving DecidableEq, Repr

end CanonMark
