import CanonMark.Text.Width

/-! # Filling lines

A flow writes tokens on lines of limited width. It is a value: each operation gives the text that
it adds and the flow that goes on from there, so a flow nested in another cannot disturb it.
-/
namespace CanonMark.Layout

def isOrderedMarker (token : Text) : Bool :=
  match token.getLast? with
  | some c =>
    let digits := token.dropLast
    (c == '.' || c == ')') && digits.all Text.isDigit && 1 ≤ digits.length && digits.length ≤ 9
  | none => false

def isAll (c : Char) (token : Text) : Bool := !token.isEmpty && token.all (· == c)

/-- Bullets, setext underlines, heading marks, quote marks and tilde fences. -/
def isLeadingMarker (token : Text) : Bool :=
  isAll '-' token || isAll '+' token || isAll '=' token || isAll '#' token ||
    token.head? == some '>' || "~~~".toList.isPrefixOf token

/-- A token that would open a block at the start of a line gets a backslash. -/
def escapeLineStart (token : Text) : Text :=
  if isOrderedMarker token then token.dropLast ++ '\\' :: token.getLast?.toList
  else if isLeadingMarker token then '\\' :: token
  else token

structure Margin where
  first : Text
  later : Text
  deriving DecidableEq, Repr

structure Flow where
  cols : Nat
  margin : Margin
  count : Nat
  firstLine : Bool
  atLineStart : Bool
  deriving DecidableEq, Repr

namespace Flow

def start (cols : Nat) (margin : Margin) : Flow := ⟨cols, margin, 0, true, true⟩

/-- A fresh flow whose margin stands behind this flow's later margin. -/
def nested (w : Flow) (margin : Margin) : Flow :=
  start w.cols ⟨w.margin.later ++ margin.first, w.margin.later ++ margin.later⟩

def opening (w : Flow) : Text := if w.firstLine then w.margin.first else w.margin.later

def breakLine (w : Flow) : Text × Flow := (['\n'], { w with count := 0, atLineStart := true })

def settle (w : Flow) : Text × Flow := if w.count > w.cols then w.breakLine else ([], w)

def openWith (w : Flow) (token : Text) : Text × Flow :=
  let written := escapeLineStart token
  let (stop, w') := settle
    { w with
      count := w.count + (Text.width w.opening + Text.width written)
      firstLine := false
      atLineStart := false }
  (w.opening ++ written ++ stop, w')

def append (w : Flow) (token : Text) : Text × Flow :=
  let (stop, w') := settle { w with count := w.count + (Text.width token + 1) }
  (' ' :: token ++ stop, w')

/-- Writes one token. A token that does not fit moves to a new line, and one that is wider than
the whole line stands there alone. -/
def write (w : Flow) (token : Text) : Text × Flow :=
  if w.firstLine || w.atLineStart then w.openWith token
  else if w.count + Text.width token + 1 > w.cols then
    let (stop, w') := w.breakLine
    let (added, w'') := w'.openWith token
    (stop ++ added, w'')
  else w.append token

def writeAll (w : Flow) : List Text → Text × Flow
  | [] => ([], w)
  | token :: rest =>
    if token.isEmpty then w.writeAll rest
    else
      let (added, w') := w.write token
      let (more, w'') := w'.writeAll rest
      (added ++ more, w'')

/-- Ends the current line. An empty line still gets its margin, so that a quote goes on. -/
def newline (w : Flow) : Text × Flow :=
  let margin := if w.firstLine || w.atLineStart then w.opening else []
  let (stop, w') := w.breakLine
  (margin ++ stop, w')

def terminate (w : Flow) : Text × Flow := if w.atLineStart then ([], w) else w.newline

end Flow
end CanonMark.Layout
