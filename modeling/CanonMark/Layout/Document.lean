import CanonMark.Layout.Block

/-! # Documents

A document is its blocks one after the other. It ends with one line feed, or is empty.
-/
namespace CanonMark.Layout

def defaultCols : Nat := 80

structure Options where
  cols : Nat := defaultCols
  deriving DecidableEq, Repr

def Options.ofCols (cols : Nat) : Options := ⟨max cols 1⟩

def blocks (cols : Nat) : List Node → Except LayoutError Text
  | [] => .ok []
  | n :: ns => do
    let text ← block cols n
    let more ← blocks cols ns
    pure (text ++ more)

/-- Drops the last of two line feeds at the end; a single white space of one byte becomes nothing.
-/
def finish (t : Text) : Text :=
  let t := if "\n\n".toList.isSuffixOf t then t.dropLast else t
  match t with
  | [c] => if c.toNat < 128 && Text.isBlank c then [] else t
  | _ => t

/-- Lays out the blocks of a document, or a node of another kind as one block. -/
def document (options : Options) (root : Node) : Except LayoutError Text :=
  finish <$>
    match root with
    | .mk .document _ cs => blocks options.cols cs
    | n => block options.cols n

end CanonMark.Layout
