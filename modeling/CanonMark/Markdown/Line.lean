import CanonMark.Text.Basic

/-! # Lines and columns

A source is a list of lines. A place in a line counts columns, because a tab reaches to the next
multiple of four; a container may take a part of a tab's columns and leave the others to what it
contains.
-/
namespace CanonMark.Markdown

/-- A line without its end, and its end as it is written: a line feed, a carriage return, both, or
nothing at the end of the source. -/
structure Line where
  text : Text
  ending : Text
  deriving DecidableEq, Repr

def linesFrom (line : Text) : Text → List Line
  | [] => if line.isEmpty then [] else [⟨line.reverse, []⟩]
  | '\n' :: t => ⟨line.reverse, ['\n']⟩ :: linesFrom [] t
  | '\r' :: '\n' :: t => ⟨line.reverse, ['\r', '\n']⟩ :: linesFrom [] t
  | '\r' :: t => ⟨line.reverse, ['\r']⟩ :: linesFrom [] t
  | c :: t => linesFrom (c :: line) t

def lines (source : Text) : List Line := linesFrom [] source

def isBlankText (t : Text) : Bool := t.all Text.isSpacing

/-- The end of a line in a literal, where a carriage return before a line feed goes. -/
def literalEnd (ending : Text) : Text := if ending == ['\r', '\n'] then ['\n'] else ending

structure Cursor where
  rest : Text
  column : Nat
  /-- Columns of a tab already passed that nothing has taken yet. -/
  spare : Nat
  deriving DecidableEq, Repr

namespace Cursor

def ofText (t : Text) : Cursor := ⟨t, 0, 0⟩

def skipFrom (n column : Nat) : Text → Nat × Cursor
  | [] => (0, ⟨[], column, 0⟩)
  | c :: t =>
    if n = 0 then (0, ⟨c :: t, column, 0⟩)
    else if c = ' ' then
      let (k, cur) := skipFrom (n - 1) (column + 1) t
      (k + 1, cur)
    else if c = '\t' then
      let reach := 4 - column % 4
      if reach ≤ n then
        let (k, cur) := skipFrom (n - reach) (column + reach) t
        (k + reach, cur)
      else (n, ⟨t, column + reach, reach - n⟩)
    else (0, ⟨c :: t, column, 0⟩)

def skip (cur : Cursor) (n : Nat) : Nat × Cursor :=
  if n ≤ cur.spare then (n, { cur with spare := cur.spare - n })
  else
    let (k, next) := skipFrom (n - cur.spare) cur.column cur.rest
    (cur.spare + k, next)

/-- Passes the next `n` characters. Columns of a tab before them stay to be taken. -/
def advance (cur : Cursor) (n : Nat) : Cursor :=
  { cur with rest := cur.rest.drop n, column := cur.column + n }

def atEnd (cur : Cursor) : Bool := cur.rest.isEmpty

def isBlank (cur : Cursor) : Bool := isBlankText cur.rest

def remaining (cur : Cursor) : Text := List.replicate cur.spare ' ' ++ cur.rest

end Cursor

def Line.start (line : Line) : Cursor := .ofText line.text

end CanonMark.Markdown
