import CanonMark.Text.Basic

/-! # Document trees

A node has a kind, a literal and children. The type admits every combination, so that a tree may
have any shape; which shapes can be written is decided by the layout.
-/
namespace CanonMark

inductive Alignment where
  | none
  | left
  | center
  | right
  deriving DecidableEq, Repr

inductive Kind where
  | document
  | heading (level : Nat)
  | paragraph
  | text
  | emphasis
  | strong
  | code
  | link (destination title : Text)
  | image (destination title : Text)
  | list (ordered : Bool)
  | item
  | quote
  | codeBlock (fenced : Bool) (fenceLength : Nat) (info : Text)
  | table (alignments : List Alignment)
  | tableHead
  | tableBody
  | tableRow
  | tableCell
  | htmlBlock
  | htmlSpan
  | hardBreak
  | thematicBreak
  /-- A construct outside the format, known by its name only. -/
  | extension (name : Text)
  deriving DecidableEq, Repr

def Kind.name : Kind → Text
  | .document => "document".toList
  | .heading _ => "heading".toList
  | .paragraph => "paragraph".toList
  | .text => "text".toList
  | .emphasis => "emphasis".toList
  | .strong => "strong".toList
  | .code => "code span".toList
  | .link _ _ => "link".toList
  | .image _ _ => "image".toList
  | .list _ => "list".toList
  | .item => "list item".toList
  | .quote => "block quote".toList
  | .codeBlock _ _ _ => "code block".toList
  | .table _ => "table".toList
  | .tableHead => "table head".toList
  | .tableBody => "table body".toList
  | .tableRow => "table row".toList
  | .tableCell => "table cell".toList
  | .htmlBlock => "html block".toList
  | .htmlSpan => "inline html".toList
  | .hardBreak => "hard line break".toList
  | .thematicBreak => "thematic break".toList
  | .extension name => name

def Kind.isInline : Kind → Bool
  | .text | .emphasis | .strong | .code | .link _ _ | .image _ _ | .htmlSpan | .hardBreak => true
  | _ => false

def Kind.isLink : Kind → Bool
  | .link _ _ => true
  | _ => false

def Kind.isCodeBlock : Kind → Bool
  | .codeBlock _ _ _ => true
  | _ => false

inductive Node where
  | mk (kind : Kind) (literal : Text) (children : List Node)
  deriving Repr

namespace Node

mutual
def decideEq : (m n : Node) → Decidable (m = n)
  | mk k l cs, mk k' l' cs' =>
    if hk : k = k' then
      if hl : l = l' then
        match decideEqAll cs cs' with
        | isTrue hc => isTrue (by rw [hk, hl, hc])
        | isFalse hc => isFalse fun h => hc (Node.mk.inj h).2.2
      else isFalse fun h => hl (Node.mk.inj h).2.1
    else isFalse fun h => hk (Node.mk.inj h).1

def decideEqAll : (ms ns : List Node) → Decidable (ms = ns)
  | [], [] => isTrue rfl
  | [], _ :: _ => isFalse (by simp)
  | _ :: _, [] => isFalse (by simp)
  | m :: ms, n :: ns =>
    match decideEq m n with
    | isTrue h =>
      match decideEqAll ms ns with
      | isTrue hs => isTrue (by rw [h, hs])
      | isFalse hs => isFalse fun e => hs (List.cons.inj e).2
    | isFalse h => isFalse fun e => h (List.cons.inj e).1
end

instance : DecidableEq Node := decideEq

def kind : Node → Kind
  | mk k _ _ => k

def literal : Node → Text
  | mk _ l _ => l

def children : Node → List Node
  | mk _ _ cs => cs

def leaf (kind : Kind) (literal : Text) : Node := mk kind literal []
def branch (kind : Kind) (children : List Node) : Node := mk kind [] children
def ofText (literal : Text) : Node := leaf .text literal

def isText (n : Node) : Bool := n.kind == .text

def addLiteral (t : Text) : Node → Node
  | mk k l cs => mk k (l ++ t) cs

def addChild : Node → Node → Node
  | mk k l cs, child => mk k l (cs ++ [child])

mutual
/-- The text that a node shows inside its parent. -/
def shown : Node → Text
  | mk .text l _ => l
  | mk .code l _ => l
  | mk .hardBreak _ _ => [' ']
  | mk _ _ cs => shownAll cs

def shownAll : List Node → Text
  | [] => []
  | n :: ns => shown n ++ shownAll ns
end

def plainText (n : Node) : Text := shownAll n.children

end Node
end CanonMark
