import CanonMark.Text.Basic

/-! # Inline content

The inline content of a block is a list of symbols. A line break is one symbol: it holds how it is
written and what stands before the content of the next line, because raw HTML and code see more of
this than text does.
-/
namespace CanonMark.Markdown

structure Break where
  ending : Text
  margin : Text
  indent : Text
  /-- What the containers would leave of margin and indentation if the line ended there. -/
  bare : Text
  /-- Whether the next line, outside a container of the block, has the form of an underline. -/
  underline : Bool
  deriving DecidableEq, Repr

inductive Symbol where
  | char (c : Char)
  | newline (b : Break)
  /-- A pipe within a table cell, which has a backslash before it. -/
  | pipe
  | trail (spacing : Text)
  /-- The place at the end of a heading where a closing sequence of hash marks was cut off. It is a
  text without characters. -/
  | cut
  /-- What is written between the content of a heading and the underline. Only a declaration sees
  it. -/
  | underline (written : Text)
  deriving DecidableEq, Repr

abbrev Content := List Symbol

namespace Symbol

def raw : Symbol → Text
  | char c => [c]
  | newline b => b.ending ++ b.margin ++ b.indent
  | pipe => ['\\', '|']
  | trail spacing => spacing
  | cut => []
  | underline written => written

/-- The symbol as it is written, without what belongs to containers. -/
def inside : Symbol → Text
  | newline b => b.ending ++ b.indent
  | s => s.raw

def char? : Symbol → Option Char
  | char c => some c
  | pipe => some '|'
  | _ => none

def test (p : Char → Bool) : Symbol → Bool
  | char c => p c
  | _ => false

def isNewline : Symbol → Bool
  | newline _ => true
  | _ => false

def isUnderlined : Symbol → Bool
  | newline b => b.underline
  | _ => false

def isSpacing : Symbol → Bool
  | char c => Text.isSpacing c
  | trail _ => true
  | _ => false

def isBlank (s : Symbol) : Bool := s.isSpacing || s.isNewline

def first (s : Symbol) : Char := s.raw.head?.getD '\n'

end Symbol

namespace Content

def ofText (t : Text) : Content := t.map .char

def leading : Content → Text
  | .char c :: t => c :: leading t
  | _ => []

def after? : Text → Content → Option Content
  | [], t => some t
  | c :: cs, .char d :: t => if c == d then after? cs t else none
  | _ :: _, _ => none

def past? (piece : Text) : Content → Option Content
  | [] => after? piece []
  | s :: t => after? piece (s :: t) <|> past? piece t

def runLength (c : Char) (t : Content) : Nat := (t.takeWhile (·.test (· == c))).length

def trimEnd (t : Content) : Content := (t.reverse.dropWhile Symbol.isSpacing).reverse

def breaks (t : Content) : Nat := t.countP Symbol.isNewline

/-- The spacing at the end of a heading goes with a mark that is read before it. -/
def dropTrail : Content → Content
  | [.trail _] => []
  | t => t

/-- The place of a closing sequence goes with a construct that ends within the text before it. -/
def dropCut : Content → Content
  | [.cut] => []
  | t => t

end Content
end CanonMark.Markdown
