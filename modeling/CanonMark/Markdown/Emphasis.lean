import CanonMark.Markdown.Content

/-! # Inline spans and emphasis

A run of asterisks or underscores may open emphasis, close it, or both. Runs are matched from left
to right: a closing run looks back for the nearest opening run it may pair with, and what stands
between the two becomes the content.
-/
namespace CanonMark.Markdown

inductive Span where
  | text (content : Text)
  | softBreak
  | hardBreak (backslash : Bool)
  | code (content : Text)
  | html (content : Text)
  | emphasis (content : List Span)
  | strong (content : List Span)
  | link (destination title : Text) (content : List Span)
  | image (destination title : Text) (content : List Span)
  deriving Repr

/-- A run of delimiters. It may be used up in parts, but keeps the length it was written with. -/
structure Run where
  mark : Char
  length : Nat
  count : Nat
  opens : Bool
  closes : Bool
  /-- Spacing at the end of a heading, which shares the fate of the last delimiter. -/
  tail : Text
  deriving DecidableEq, Repr

/-- Two runs of which one may both open and close do not pair if their lengths add up to a multiple
of three, unless the closing one is such a multiple itself. -/
def Run.pairs (opener closer : Run) : Bool :=
  opener.opens && opener.mark == closer.mark &&
    (!(opener.closes || closer.opens) || (opener.length + closer.length) % 3 != 0 ||
      closer.length % 3 == 0)

inductive Piece where
  | span (s : Span)
  | run (r : Run)
  /-- A bracket that may open a link or an image, with the text behind it. A bracket that is not
  live can no longer open a link. -/
  | bracket (image live : Bool) (behind : Content)
  deriving Repr

def Piece.isRun : Piece → Bool
  | .run _ => true
  | _ => false

def Piece.spans : Piece → List Span
  | .span s => [s]
  | .run r => [.text (List.replicate r.count r.mark ++ r.tail)]
  | .bracket image _ _ => [.text (if image then "![".toList else ['['])]

/-- The nearest run that a closing run pairs with, the content between, and what stands before. The
pieces are given last one first. -/
def opener? (closer : Run) : List Piece → Option (List Span × Run × List Piece)
  | [] => none
  | p :: before =>
    let further := (opener? closer before).map fun (content, r) => (content ++ p.spans, r)
    match p with
    | .run r => if r.pairs closer then some ([], r, before) else further
    | _ => further

/-- Wraps content in strong emphasis for each two delimiters, and in emphasis for a last one, which
is outermost. -/
def enclose : Nat → List Span → List Span
  | 0, content => content
  | 1, content => [.emphasis content]
  | n + 2, content => enclose n [.strong content]

def closeRun : Nat → Run → List Piece → Run × List Piece
  | 0, r, before => (r, before)
  | fuel + 1, r, before =>
    if r.count = 0 then (r, before)
    else
      match opener? r before with
      | none => (r, before)
      | some (content, o, before) =>
        let n := min r.count o.count
        let before :=
          if o.count > n then .run { o with count := o.count - n } :: before else before
        closeRun fuel { r with count := r.count - n }
          ((enclose n content).reverse.map .span ++ before)

def resolveStep (before : List Piece) : Piece → List Piece
  | .run r =>
    let (r, before) := if r.closes then closeRun r.count r before else (r, before)
    if r.count = 0 then before
    else if r.opens then .run r :: before
    else (Piece.run r).spans.map .span ++ before
  | p => p :: before

def resolve (pieces : List Piece) : List Span :=
  (pieces.foldl resolveStep []).reverse.flatMap Piece.spans

end CanonMark.Markdown
