import CanonMark.Layout.Error
import CanonMark.Layout.Escape

/-! # Inline markup

A run of inline nodes is compiled to marks: glyphs, and gaps, which are the spaces at which a line
may be broken. A space inside a code span, a destination or a word of link text is a glyph. Writing
every gap as a space gives the markup on one line; the tokens that a paragraph is filled with are
what stands between gaps.
-/
namespace CanonMark.Layout

inductive Mark where
  | glyph (c : Char)
  | gap
  deriving DecidableEq, Repr

def Mark.char : Mark → Char
  | .glyph c => c
  | .gap => ' '

/-- Text that may be broken at its spaces. -/
def breakable (t : Text) : List Mark := t.map fun c => if c = ' ' then .gap else .glyph c

/-- Text that is never broken. -/
def solid (t : Text) : List Mark := t.map .glyph

def segments : List Mark → List Text
  | [] => [[]]
  | .gap :: ms => [] :: segments ms
  | .glyph c :: ms =>
    match segments ms with
    | [] => [[c]]
    | s :: ss => (c :: s) :: ss

def tokens (ms : List Mark) : List Text := (segments ms).filter fun s => !s.isEmpty

/-- Emphasis must hold text and nothing else. -/
def delimited (delimiter : Text) (children : List Node) : Except LayoutError (List Mark) :=
  if children.isEmpty || !children.all Node.isText then .error .malformedEmphasis
  else
    .ok (breakable (delimiter ++ escape (flatten (children.flatMap Node.literal)) ++ delimiter))

/-- A letter, then 1 to 31 characters of a scheme, a colon, and no white space or angle bracket. -/
def isAutolink (destination : Text) : Bool :=
  match destination with
  | [] => false
  | c :: t =>
    let scheme := t.takeWhile fun d => Text.isLetterOrDigit d || d == '+' || d == '.' || d == '-'
    Text.isLetter c && 1 ≤ scheme.length && scheme.length ≤ 31 &&
      match t.drop scheme.length with
      | ':' :: rest => rest.all fun d => !(Text.isBlank d || d == '<' || d == '>')
      | _ => false

/-- A destination that is empty or holds a space, a parenthesis or an angle bracket is written
between angle brackets. -/
def linkDestination (destination : Text) : Text :=
  let doubled := Text.replace '\\' "\\\\".toList destination
  if doubled.isEmpty ||
      doubled.any fun c => c == ' ' || c == '(' || c == ')' || c == '<' || c == '>' then
    '<' :: (Text.replace '>' "\\>".toList (Text.replace '<' "\\<".toList doubled) ++ ['>'])
  else doubled

def linkTitle (title : Text) : Text :=
  if title.isEmpty then []
  else
    ' ' :: '\x22' ::
      (Text.replace '\x22' ['\\', '\x22'] (Text.replace '\\' "\\\\".toList title) ++ ['\x22'])

def linkTail (destination title : Text) : List Mark :=
  breakable "](".toList ++ solid (linkDestination destination) ++ breakable (linkTitle title) ++
    breakable [')']

def spaced : List Text → List Mark
  | [] => []
  | [word] => solid word
  | word :: words => solid word ++ .gap :: spaced words

def linkMarks (destination title : Text) (words : List Text) : List Mark :=
  if title.isEmpty && Text.join [' '] words == destination && isAutolink destination then
    solid ('<' :: destination ++ ['>'])
  else breakable ['['] ++ spaced words ++ linkTail destination title

def longestRunFrom (c : Char) (current longest : Nat) : Text → Nat
  | [] => max current longest
  | d :: t =>
    if d = c then longestRunFrom c (current + 1) longest t
    else longestRunFrom c 0 (max current longest) t

def longestRun (c : Char) (t : Text) : Nat := longestRunFrom c 0 0 t

/-- Code between backtick runs longer than any run inside it. Code that begins or ends with a
backtick, or has a space at both ends and something between, is padded with one space a side. -/
def codeSpan (literal : Text) : Text :=
  let content := unbroken literal
  let fence := List.replicate (longestRun '\x60' content + 1) '\x60'
  let padded := content.head? == some ' ' && content.getLast? == some ' ' &&
    content.any (· != ' ')
  if content.head? == some '\x60' || content.getLast? == some '\x60' || padded then
    fence ++ ' ' :: content ++ ' ' :: fence
  else fence ++ content ++ fence

/-- An exclamation mark directly before a link would make it an image. -/
def shieldBang (beforeLink : Bool) (t : Text) : Text :=
  if beforeLink && t.getLast? == some '!' then t.dropLast ++ ['\\', '!'] else t

def textMarks (beforeLink : Bool) (literal : Text) : List Mark :=
  breakable (shieldBang beforeLink (escape (unbroken literal)))

def imageMarks (destination title alt : Text) : List Mark :=
  breakable "![".toList ++ breakable (escape (trimFlatten alt)) ++ linkTail destination title

mutual
def compileNode (beforeLink : Bool) : Node → Except LayoutError (List Mark)
  | .mk .text l _ => .ok (textMarks beforeLink l)
  | .mk .emphasis _ cs => delimited ['*'] cs
  | .mk .strong _ cs => delimited ['*', '*'] cs
  | .mk .code l _ => .ok (solid (codeSpan l))
  | .mk (.link destination title) _ cs =>
    if cs.any (·.kind.isLink) then .error .nestedLink
    else
      match compile cs with
      | .ok ms => .ok (linkMarks destination title (tokens ms))
      | .error e => .error e
  | .mk (.image destination title) _ cs => .ok (imageMarks destination title (Node.shownAll cs))
  | .mk k _ _ => .error (.unsupported k)

def compile : List Node → Except LayoutError (List Mark)
  | [] => .ok []
  | n :: ns =>
    match compileNode (ns.head?.any (·.kind.isLink)) n with
    | .ok ms =>
      match compile ns with
      | .ok rest => .ok (ms ++ rest)
      | .error e => .error e
    | .error e => .error e
end

def inlineText (ns : List Node) : Except LayoutError Text := (·.map Mark.char) <$> compile ns

def inlineTokens (ns : List Node) : Except LayoutError (List Text) := tokens <$> compile ns

end CanonMark.Layout
