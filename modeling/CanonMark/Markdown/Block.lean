import CanonMark.Markdown.Html
import CanonMark.Markdown.Link
import CanonMark.Markdown.Opener
import CanonMark.Markdown.Table
import CanonMark.Text.Blank

/-! # Block structure

The source is read line by line. The open containers form a stack; a line first passes those that
go on, then opens new ones, and what is left of it begins a leaf block. A leaf reads the lines that
belong to it before the next line is looked at. Inline content is kept unread until all definitions
are known.
-/
namespace CanonMark.Markdown

inductive Block where
  | paragraph (content : Content)
  | heading (level : Nat) (content : Content)
  | fenced (length : Nat) (info code : Text)
  | indented (code : Text)
  /-- The indentation of an HTML block is not part of its literal. -/
  | html (margin literal : Text)
  /-- All rows have the same number of cells, and the first one is the header. -/
  | table (alignments : List Alignment) (header : List Content) (rows : List (List Content))
  | rule
  | quote (blocks : List Block)
  | list (ordered tight : Bool) (items : List Block)
  | item (blocks : List Block)
  deriving Repr

inductive Container where
  | quote
  | list (mark : ListMark) (loose : Bool)
  /-- What belongs to an item is indented by so many columns. -/
  | item (indent : Nat)
  deriving DecidableEq, Repr

def Cursor.quoteMark? (cur : Cursor) : Option Cursor :=
  if cur.rest.head? == some '>' then some ((cur.advance 1).skip 1).2 else none

/-- The place behind what a container takes of a line that belongs to it. Before a quote mark stand
up to three columns; if they end within a tab, its other columns are counted behind the mark. -/
def Container.pass? (cur : Cursor) : Container → Option Cursor
  | .quote => (cur.skip 3).2.quoteMark?
  | .list _ _ => some cur
  | .item indent =>
    let (taken, next) := cur.skip indent
    if taken = indent || next.atEnd then some next else none

def pass (cur : Cursor) : List Container → List Container × Cursor
  | [] => ([], cur)
  | c :: cs =>
    match c.pass? cur with
    | some next => pass next cs
    | none => (c :: cs, cur)

def inside? (spine : List Container) (line : Line) : Option Cursor :=
  match pass line.start spine with
  | ([], cur) => some cur
  | _ => none

/-- Whether the lines behind a header of so many columns make it the head of a table: its
alignments. -/
def tableHead? (spine : List Container) (columns : Nat) (following : List Line) :
    Option (List Alignment) :=
  match following with
  | [] => none
  | line :: _ => do
    let cur ← inside? spine line
    let (indent, next) := cur.skip 4
    let alignments ← if indent ≥ 4 then none else delimiterRow? next.rest
    if columns = alignments.length then some alignments else none

/-- Whether a list marker may end a paragraph. Within the paragraph's containers it must begin a
bullet list or a list that counts from one, and its item may not be empty. -/
def markerInterrupts (free : Bool) (t : Text) : Bool :=
  match listMarker? t with
  | none => false
  | some (mark, number, length) =>
    free || (!mark.ordered || number == 1) && !isBlankText (t.drop length)

def interrupts (free : Bool) (t : Text) : Bool :=
  t.isEmpty || isThematicBreak t || (headingLevel? t).isSome || (fence? t).isSome ||
    t.head? == some '>' || markerInterrupts free t || (htmlEnd? t).isSome || opensBlockTag t

/-- Whether a line, from behind its indentation, ends the paragraph before it. A table does if its
first line begins with a pipe. -/
def interruptsParagraph (spine : List Container) (free : Bool) (t : Text)
    (following : List Line) : Bool :=
  interrupts free t || t.head? == some '|' &&
    (tableHead? spine (columnCount (splitAtPipes false t)) following).isSome

structure FurtherLine where
  margin : Text
  indent : Text
  bare : Text
  underline : Bool
  content : Text
  ending : Text
  deriving DecidableEq, Repr

def FurtherLine.ofLine (spine : List Container) (line : Line) : FurtherLine :=
  let (left, cur) := pass line.start spine
  let margin := line.text.take (line.text.length - cur.rest.length)
  let indent := cur.rest.takeWhile Text.isSpaceOrTab
  let content := cur.rest.drop indent.length
  { margin, indent, content
    bare := (pass (.ofText (margin ++ indent)) spine).2.rest
    underline := !left.isEmpty && (cur.skip 4).1 < 4 && (underlineLevel? content).isSome
    ending := line.ending }

def joinLines (first ending : Text) : List FurtherLine → Content
  | [] => .ofText first
  | l :: ls =>
    Content.ofText first ++
      .newline ⟨ending, l.margin, l.indent, l.bare, l.underline⟩ :: joinLines l.content l.ending ls

structure Continuation where
  lines : List FurtherLine
  underline : Option (Nat × Text)
  rest : List Line
  deriving DecidableEq, Repr

/-- A line continues a paragraph unless it is blank or opens a block. It need not pass all
containers. -/
def continuation (spine : List Container) : List Line → Continuation
  | [] => ⟨[], none, []⟩
  | line :: following =>
    let (left, cur) := pass line.start spine
    let (indent, next) := cur.skip 4
    let underline := if left.isEmpty && indent < 4 then underlineLevel? next.rest else none
    if let some level := underline then
      ⟨[], some (level, line.text.take (line.text.length - cur.rest.length)), following⟩
    else if indent < 4 && interruptsParagraph spine (!left.isEmpty) next.rest following ||
        cur.rest.all Text.isSpaceOrTab then
      ⟨[], none, line :: following⟩
    else
      let c := continuation spine following
      { c with lines := .ofLine spine line :: c.lines }

def tableRows (spine : List Container) (columns : Nat) :
    List Line → List (List Content) × List Line
  | [] => ([], [])
  | line :: following =>
    match inside? spine line with
    | none => ([], line :: following)
    | some cur =>
      let t := cur.rest.dropWhile Text.isSpaceOrTab
      if interrupts true t || (cells t).isEmpty then ([], line :: following)
      else
        let (rows, rest) := tableRows spine columns following
        (fitRow columns (cells t) :: rows, rest)

def indentedLines (spine : List Container) : List Line → List (Text × Bool) × List Line
  | [] => ([], [])
  | line :: following =>
    match inside? spine line with
    | none => ([], line :: following)
    | some cur =>
      let (indent, next) := cur.skip 4
      if indent = 4 || next.atEnd then
        let (code, rest) := indentedLines spine following
        ((next.remaining ++ literalEnd line.ending, next.isBlank) :: code, rest)
      else ([], line :: following)

/-- The code within a fence, and the lines behind the closing fence. The end of the source closes
the fence too, and takes the spacing of a last line without an end with it. -/
def fencedLines (spine : List Container) (indent : Nat) (mark : Char) (length : Nat) :
    List Line → Text × List Line
  | [] => ([], [])
  | line :: following =>
    match inside? spine line with
    | none => ([], line :: following)
    | some cur =>
      let (_, cur) := cur.skip indent
      let (further, next) := cur.skip (4 - indent)
      if further < 4 - indent &&
          (closesFence mark length next.rest || next.atEnd && line.ending.isEmpty) then
        ([], following)
      else
        let (code, rest) := fencedLines spine indent mark length following
        (cur.remaining ++ literalEnd line.ending ++ code, rest)

/-- The lines of an HTML block up to one of which `ends` holds, or up to a blank line where
`toBlank` is set: their margin, their literal, and the lines behind. -/
def htmlLines (spine : List Container) (ends : Text → Bool) (toBlank : Bool) :
    List Line → Text × Text × List Line
  | [] => ([], [], [])
  | line :: following =>
    match inside? spine line with
    | none => ([], [], line :: following)
    | some cur =>
      if toBlank && cur.isBlank || cur.atEnd && line.ending.isEmpty then
        ([], [], line :: following)
      else
        let (margin, literal, rest) :=
          if ends cur.rest then ([], [], following) else htmlLines spine ends toBlank following
        (List.replicate cur.spare ' ' ++ margin, cur.rest ++ literalEnd line.ending ++ literal,
          rest)

structure Frame where
  container : Container
  blocks : List Block
  deriving Repr

def Frame.complete (f : Frame) : Block :=
  match f.container with
  | .quote => .quote f.blocks.reverse
  | .list mark loose => .list mark.ordered (!loose) f.blocks.reverse
  | .item _ => .item f.blocks.reverse

structure State where
  frames : List Frame
  blocks : List Block
  definitions : List Definition
  /-- Whether a blank line was met that can make a list loose. -/
  blankBefore : Bool
  itemEmpty : Bool
  deriving Repr

namespace State

def initial : State := ⟨[], [], [], false, false⟩

/-- The open containers, outermost first. -/
def spine (s : State) : List Container := (s.frames.map Frame.container).reverse

def add (s : State) (b : Block) : State :=
  match s.frames with
  | [] => { s with blocks := b :: s.blocks }
  | f :: fs => { s with frames := { f with blocks := b :: f.blocks } :: fs }

def close (s : State) : State :=
  match s.frames with
  | [] => s
  | f :: fs =>
    let s := { s with frames := fs }.add f.complete
    match f.container with
    | .list _ false => { s with itemEmpty := false }
    | _ => s

def closeMany (s : State) : Nat → State
  | 0 => s
  | n + 1 => s.close.closeMany n

def push (s : State) (c : Container) : State := { s with frames := ⟨c, []⟩ :: s.frames }

def loosen (s : State) : State :=
  match s.frames with
  | f :: ⟨.list mark _, blocks⟩ :: fs => { s with frames := f :: ⟨.list mark true, blocks⟩ :: fs }
  | _ => s

/-- Ends the list that no further item continues. A blank line before what follows makes the list
around it loose. -/
def finishList (s : State) : State :=
  let s := { s with itemEmpty := false }
  let s :=
    match s.frames with
    | ⟨.list _ _, _⟩ :: _ => s.close
    | _ => s
  if s.blankBefore then { s.loosen with blankBefore := false } else s

def continueList (s : State) (mark : ListMark) : State :=
  let opened (s : State) : State := { s.push (.list mark false) with blankBefore := false }
  match s.frames with
  | [] => opened { s with itemEmpty := false }
  | ⟨.list m loose, blocks⟩ :: fs =>
    if m = mark then
      { s with
        frames := ⟨.list m (loose || s.blankBefore), blocks⟩ :: fs
        blankBefore := false
        itemEmpty := false }
    else opened s.finishList
  | _ => opened s.finishList

def blankLine (s : State) : State :=
  match s.frames with
  | [] => s
  | ⟨.quote, _⟩ :: _ => s
  | ⟨.item _, _⟩ :: _ =>
    if s.itemEmpty then { s.close with blankBefore := true } else { s with blankBefore := true }
  | _ => { s with blankBefore := true }

end State

/-- A list marker: its mark, the indentation of what belongs to the item, and the place behind. Up
to four columns of spacing belong to the marker; with more, or with nothing behind, only one. -/
def Cursor.listMarker? (cur : Cursor) (outer : Nat) : Option (ListMark × Nat × Cursor) :=
  if isThematicBreak cur.rest then none
  else
    (Markdown.listMarker? cur.rest).map fun (mark, _, length) =>
      let behind := cur.advance length
      let (spacing, next) := behind.skip 5
      if behind.isBlank || spacing ≥ 5 then (mark, outer + length + 1, (behind.skip 1).2)
      else (mark, outer + length + spacing, next)

/-- Opens the containers that begin at a place. No place is left if the line is used up by an item
with nothing behind its marker. -/
def openContainers : Nat → State → Cursor → State × Option Cursor
  | 0, s, cur => (s, some cur)
  | fuel + 1, s, cur =>
    let (outer, next) := cur.skip 4
    if outer ≥ 4 then (s, some cur)
    else
      match next.listMarker? outer with
      | some (mark, indent, behind) =>
        let s := (s.continueList mark).push (.item indent)
        if behind.isBlank then ({ s with itemEmpty := true }, none)
        else openContainers fuel s behind
      | none =>
        match next.quoteMark? with
        | some behind => openContainers fuel (s.finishList.push .quote) behind
        | none => (s, some cur)

def dropBlankEnd (code : List (Text × Bool)) : List (Text × Bool) :=
  (code.reverse.dropWhile Prod.snd).reverse

def readIndented (s : State) (first : Text) (following : List Line) : State × List Line :=
  let s := s.finishList
  let (code, rest) := indentedLines s.spine following
  let kept := (dropBlankEnd code).flatMap Prod.fst
  ({ s.add (.indented (first ++ kept)) with blankBefore := (code.getLast?.map Prod.snd).getD false },
    rest)

def readHtml (s : State) (ends : Text → Bool) (toBlank : Bool) (indent : Nat) (t ending : Text)
    (following : List Line) : State × List Line :=
  let s := s.finishList
  let (margin, literal, rest) :=
    if ends t then ([], [], following) else htmlLines s.spine ends toBlank following
  (s.add (.html (List.replicate indent ' ' ++ margin) (t ++ literalEnd ending ++ literal)), rest)

def readFenced (s : State) (indent : Nat) (mark : Char) (length : Nat) (t : Text)
    (following : List Line) : State × List Line :=
  let s := s.finishList
  let info := Text.trim (Text.decode (trimSpacing (t.drop length)))
  let (code, rest) := fencedLines s.spine indent mark length following
  (s.add (.fenced length info code), rest)

def endsInBackslash (t : Text) : Bool := Text.runLength '\\' t.reverse % 2 == 1

def readParagraph (s : State) (t ending : Text) (following : List Line) : State × List Line :=
  let s := s.finishList
  let columns := if endsInBackslash t then 0 else columnCount (splitAtFreePipes t)
  match tableHead? s.spine columns following with
  | some alignments =>
    let (rows, rest) := tableRows s.spine alignments.length (following.drop 1)
    (s.add (.table alignments (fitRow alignments.length (cells t)) rows), rest)
  | none =>
    let c := continuation s.spine following
    let whole := joinLines t ending c.lines
    let content := whole.trimEnd
    match c.underline with
    | some (level, margin) =>
      let written := (whole.drop content.length).flatMap Symbol.raw ++
        (c.lines.getLast?.map FurtherLine.ending).getD ending ++ margin
      (s.add (.heading level (content ++ [.underline written])), c.rest)
    | none => (s.add (.paragraph content), c.rest)

/-- Reads the definitions that a text begins with, and the paragraph behind them. Definitions are
continued as a paragraph is: a line behind them that ends no paragraph belongs to the same
containers. -/
def readDefinitions : Nat → State → Text → Text → List Line → State × List Line
  | 0, s, t, ending, following => readParagraph s t ending following
  | fuel + 1, s, t, ending, following =>
    match definition? (joinLines t ending (continuation s.spine following).lines) with
    | none => readParagraph s t ending following
    | some (d, passed) =>
      let s := { s with definitions := s.definitions ++ [d] }
      match following.drop passed with
      | [] => (s.finishList, [])
      | line :: rest =>
        let (left, cur) := pass line.start s.spine
        let (indent, next) := cur.skip 4
        let t := cur.rest.dropWhile Text.isSpaceOrTab
        if t.isEmpty || indent < 4 && interruptsParagraph s.spine (!left.isEmpty) next.rest rest then
          (s.finishList, line :: rest)
        else readDefinitions fuel s t line.ending rest

def readLeaf (s : State) (cur : Cursor) (ending : Text) (following : List Line) :
    State × List Line :=
  let (indent, next) := cur.skip 4
  let t := next.rest
  if indent ≥ 4 then readIndented s (next.remaining ++ literalEnd ending) following
  else if let some final := htmlEnd? t then
    readHtml s (Text.holds final) false indent t ending following
  else if opensBlockTag t || Html.isTagLine t then
    readHtml s (fun _ => false) true indent t ending following
  else if isThematicBreak t then (s.finishList.add .rule, following)
  else if let some level := headingLevel? t then
    (s.finishList.add (.heading level (headingContent (t.drop level))), following)
  else if let some (mark, length) := fence? t then readFenced s indent mark length t following
  else readDefinitions (following.length + 1) s t ending following

def readBlock (s : State) (line : Line) (following : List Line) : State × List Line :=
  let (left, cur) := pass line.start s.spine
  let s := s.closeMany left.length
  match openContainers (cur.rest.length + 1) s cur with
  | (s, none) => (s, following)
  | (s, some cur) =>
    if cur.isBlank then (s.blankLine, following) else readLeaf s cur line.ending following

/-- Reads blocks until no line is left. Each block uses up a line, so as much fuel as there are
lines is enough. -/
def readBlocks : Nat → State → List Line → State
  | _, s, [] => s
  | 0, s, _ => s
  | fuel + 1, s, line :: following =>
    let (s, rest) := readBlock s line following
    readBlocks fuel s rest

def blocks (source : Text) : List Block × List Definition :=
  let ls := lines source
  let s := readBlocks ls.length .initial ls
  let s := s.closeMany s.frames.length
  (s.blocks.reverse, s.definitions)

end CanonMark.Markdown
