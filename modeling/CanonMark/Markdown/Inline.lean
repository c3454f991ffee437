import CanonMark.Markdown.Emphasis
import CanonMark.Markdown.Html
import CanonMark.Markdown.Link
import CanonMark.Text.Blank

/-! # Reading inline content

The content of a block is read from left to right. Code spans, raw HTML and autolinks are settled
where they begin; a closing bracket decides whether the nearest open bracket begins a link; emphasis
is resolved within each level when the level is complete.
-/
namespace CanonMark.Markdown

/-- Whether a run between two characters may open emphasis. The ends of the text count as white
space. -/
def canOpen (mark prev next : Char) : Bool :=
  !Text.isBlank next &&
    (mark == '*' && !Text.isPunctuation next || Text.isBlank prev || Text.isPunctuation prev)

def canClose (mark prev next : Char) : Bool :=
  !Text.isBlank prev &&
    (mark == '*' && !Text.isPunctuation prev || Text.isBlank next || Text.isPunctuation next)

/-- Code up to the next run of exactly `n` backticks, where a run of `seen` backticks stands
directly before the content. -/
def codeBody? (n seen : Nat) : Content → Option (Content × Content)
  | [] => if seen = n then some ([], []) else none
  | s :: t =>
    if s.test (· == '\x60') then codeBody? n (seen + 1) t
    else if seen = n then some ([], s :: t)
    else
      (codeBody? n 0 t).map fun (code, rest) =>
        (List.replicate seen (.char '\x60') ++ s :: code, rest)

/-- The text of code. Each character of a line end is a space. The indentation behind a line break
stays, but where the code ends with it the containers take what they can get of it. -/
def codeText : Content → Text
  | [] => []
  | [.newline b] => b.ending.map (fun _ => ' ') ++ b.bare
  | .newline b :: t => b.ending.map (fun _ => ' ') ++ b.indent ++ codeText t
  | s :: t => s.char?.toList ++ codeText t

/-- One space at each end of code goes if there is one at both and something between. -/
def codeContent (t : Text) : Text :=
  if t.head? == some ' ' && t.getLast? == some ' ' && t.any (· != ' ') then (t.drop 1).dropLast
  else t

def isAddressSymbol (s : Symbol) : Bool :=
  s == .pipe || s.test fun c => c.toNat > 32 && c != '<' && c != '>'

def address? (t : Content) : Option (Text × Content) :=
  match t with
  | [] => none
  | s :: rest =>
    let scheme := rest.takeWhile (·.test fun c =>
      Text.isLetterOrDigit c || c == '.' || c == '-' || c == '+')
    if s.test Text.isLetter && 1 ≤ scheme.length && scheme.length ≤ 31 &&
        (rest.drop scheme.length).head?.any (·.test (· == ':')) then
      let body := t.takeWhile isAddressSymbol
      (Content.after? ['>'] (t.drop body.length)).map fun rest => (body.flatMap Symbol.raw, rest)
    else none

def isMailChar (c : Char) : Bool :=
  Text.isLetterOrDigit c || c == '\x27' || c == '\x60' || c == '\x7b' || c == '\x7d' ||
    ".!#$%&*+/=?^_|~-".toList.any (· == c)

def isDomainLabel (t : Text) : Bool :=
  !t.isEmpty && t.length ≤ 63 && t.head? != some '-' && t.getLast? != some '-'

def mailAddress? (t : Content) : Option (Text × Content) :=
  let chars := t.leading
  let user := chars.takeWhile isMailChar
  match chars.drop user.length with
  | '@' :: rest =>
    let domain := rest.takeWhile fun c => Text.isLetterOrDigit c || c == '-' || c == '.'
    let address := user ++ '@' :: domain
    if user.isEmpty || !(Text.splitOn '.' domain).all isDomainLabel then none
    else (Content.after? ['>'] (t.drop address.length)).map fun rest => (address, rest)
  | _ => none

/-- The pieces from the nearest bracket on: what stands behind it in order, the bracket, and what
stands before it. The pieces are given last one first, and `content` stands behind them all. -/
def lastBracket? (content : List Piece) :
    List Piece → Option (List Piece × (Bool × Bool × Content) × List Piece)
  | [] => none
  | .bracket image live behind :: before => some (content, (image, live, behind), before)
  | p :: before => lastBracket? (p :: content) before

/-- A link cannot hold a link: brackets before it are no longer live. -/
def disarm : Piece → Piece
  | .bracket false _ behind => .bracket false false behind
  | p => p

/-- A backslash that breaks the last line of a link text stands for itself if emphasis had to be
resolved in the text. -/
def settleLastBreak (content : List Piece) : List Piece :=
  match content.getLast? with
  | some (.span (.hardBreak true)) =>
    if content.any Piece.isRun then content.dropLast ++ [.span (.text ['\\'])] else content
  | _ => content

inductive Reference where
  | direct (destination title : Text) (rest : Content)
  | defined (d : Definition) (rest : Content)
  | failed
  /-- No link, and neither a shortcut at the closing bracket before `rest`. -/
  | barred (rest : Content)
  deriving Repr

def shortcut (definitions : List Definition) (own : Content) (closed : Nat) (rest : Content) :
    Reference :=
  match label? own with
  | some (label, behind) =>
    if behind.length = closed then
      match lookup? definitions label with
      | some d => .defined d rest
      | none => .failed
    else .failed
  | none => .failed

/-- The reference of bracketed content: `own` is what stands behind its opening bracket and `t` what
stands behind its closing one, at which `free` tells whether a shortcut may end. The spacing at the
end of a heading bars a shortcut before it, and a backslash before the bracket of a label goes
unseen. -/
def reference (definitions : List Definition) (own t : Content) (free : Bool) : Reference :=
  let short (rest : Content) : Reference :=
    if free then shortcut definitions own t.length rest else .failed
  let labelled (inner : Content) : Reference :=
    match inner with
    | .char ']' :: rest => short rest
    | _ =>
      match label? inner with
      | some (label, rest) =>
        match lookup? definitions label with
        | some d => .defined d rest
        | none => .barred rest
      | none => short t
  match target? t with
  | some (destination, title, rest) => .direct destination title rest
  | none =>
    match t with
    | .char '[' :: inner => labelled inner
    | .char '\\' :: .char '[' :: inner => labelled inner
    | [.trail _] => .failed
    | _ => short t

structure Reading where
  pieces : List Piece
  /-- The lengths of content left behind closing brackets at which no shortcut may end. -/
  barred : List Nat
  /-- How many bytes definitions may still add to the document before no more link refers to one. -/
  allowance : Nat
  deriving Repr

def Reading.span (r : Reading) (s : Span) : Reading := { r with pieces := .span s :: r.pieces }

def Reading.text (r : Reading) (t : Text) : Reading := r.span (.text t)

def Reading.close (r : Reading) (definitions : List Definition) (t : Content) :
    Reading × Content :=
  match lastBracket? [] r.pieces with
  | none => (r.text [']'], t)
  | some (content, (image, live, own), before) =>
    let plain : Reading :=
      { r with
        pieces := .span (.text [']']) :: content.reverse ++
          (Piece.bracket image live own).spans.map .span ++ before }
    let link (destination title : Text) : Reading :=
      let inner := resolve (settleLastBreak content)
      if image then { r with pieces := .span (.image destination title inner) :: before }
      else { r with pieces := .span (.link destination title inner) :: before.map disarm }
    let known := if r.allowance = 0 then [] else definitions
    if !live then (plain, t)
    else
      match reference known own t (!r.barred.contains t.length) with
      | .direct destination title rest => (link destination title, rest.dropCut)
      | .defined d rest =>
        let size := Text.byteLength d.destination + Text.byteLength d.title
        ({ link d.destination d.title with allowance := r.allowance - size }, rest.dropTrail)
      | .failed => (plain, t)
      | .barred rest => ({ plain with barred := rest.length :: r.barred }, t)

def isSpecial (c : Char) : Bool :=
  c == '\\' || c == '\x60' || c == '<' || c == '&' || c == '!' || c == '[' || c == ']' ||
    c == '*' || c == '_' || Text.isSpacing c

/-- Reads one construct that begins with a character. Gives the last character passed and the
content to go on with. -/
def readChar (definitions : List Definition) (r : Reading) (prev c : Char) (t : Content) :
    Reading × Char × Content :=
  let plain : Reading × Char × Content := (r.text [c], c, t)
  if Text.isSpacing c then
    let spacing := c :: t.leading.takeWhile Text.isSpacing
    match t.drop (spacing.length - 1) with
    | .newline _ :: rest =>
      (r.span (if spacing.length ≥ 2 then .hardBreak false else .softBreak), '\n', rest)
    | rest => (r.text spacing, ' ', rest)
  else if c == '\\' then
    match t with
    | .newline _ :: rest => (r.span (.hardBreak true), '\n', rest)
    | s :: rest =>
      match s.char? with
      | some d => if Text.isAsciiPunctuation d then (r.text [d], d, rest) else plain
      | none => plain
    | [] => plain
  else if c == '\x60' then
    let n := 1 + t.runLength c
    let rest := t.drop (n - 1)
    match codeBody? n 0 rest with
    | some (code, rest) => (r.span (.code (codeContent (codeText code))), c, rest.dropTrail)
    | none => (r.text (List.replicate n c), c, rest)
  else if c == '<' then
    match address? t <|> mailAddress? t with
    | some (address, rest) => (r.span (.link address [] [.text address]), '>', rest.dropCut)
    | none =>
      match Html.inline? t with
      | some (literal, rest) =>
        let last := (t.drop (t.length - rest.length - 1)).head?
        (r.span (.html literal), if last.any Symbol.isNewline then '\n' else '>', rest.dropCut)
      | none => plain
  else if c == '&' then
    let chars := t.leading
    match Text.Entity.read? chars with
    | some (meaning, rest) =>
      (r.text meaning, ';', Content.dropTrail (t.drop (chars.length - rest.length)))
    | none => plain
  else if c == '!' && t.head?.any (·.test (· == '[')) then
    ({ r with pieces := .bracket true true (t.drop 1) :: r.pieces }, '[', t.drop 1)
  else if c == '[' then ({ r with pieces := .bracket false true t :: r.pieces }, c, t)
  else if c == ']' then
    let (r, rest) := r.close definitions t
    (r, c, rest)
  else if c == '*' || c == '_' then
    let n := 1 + t.runLength c
    let rest := t.drop (n - 1)
    let next := (rest.head?.map Symbol.first).getD '\n'
    let run : Run := ⟨c, n, n, canOpen c prev next, canClose c prev next, []⟩
    if !run.opens && !run.closes then (r.text (List.replicate n c), c, rest)
    else
      match rest with
      | [.trail w] => ({ r with pieces := .run { run with tail := w } :: r.pieces }, c, [])
      | _ => ({ r with pieces := .run run :: r.pieces }, c, rest)
  else
    let more := t.leading.takeWhile fun d => !isSpecial d
    (r.text (c :: more), more.getLast?.getD c, t.drop more.length)

def readOne (definitions : List Definition) (r : Reading) (prev : Char) (s : Symbol)
    (t : Content) : Reading × Char × Content :=
  match s with
  | .char c => readChar definitions r prev c t
  | .newline _ => (r.span .softBreak, '\n', t)
  | .pipe => (r.text ['|'], '|', t)
  | .trail w => (r.text w, ' ', t)
  | .cut => (r.text [], ' ', t)
  | .underline _ => (r, '\n', t)

def readInline (definitions : List Definition) : Nat → Reading → Char → Content → Reading
  | _, r, _, [] => r
  | 0, r, _, _ => r
  | fuel + 1, r, prev, s :: t =>
    let (r, prev, rest) := readOne definitions r prev s t
    readInline definitions fuel r prev rest

def spans (definitions : List Definition) (allowance : Nat) (t : Content) : List Span × Nat :=
  let r := readInline definitions t.length ⟨[], [], allowance⟩ '\n' t
  (resolve r.pieces.reverse, r.allowance)

end CanonMark.Markdown
