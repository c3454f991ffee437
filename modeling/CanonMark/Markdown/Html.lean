import CanonMark.Markdown.Content

/-! # Raw HTML

The reader passes HTML through without understanding it; it only has to see where a tag, comment,
instruction or declaration ends. Each function takes what follows the part already seen and gives
what follows the whole.
-/
namespace CanonMark.Markdown.Html

def isValueSymbol (s : Symbol) : Bool :=
  s == .pipe ||
    s.test fun c => !(c == ' ' || c == '\x22' || c == '\x27' || c == '=' || c == '<' || c == '>' ||
      c == '\x60')

def value? (t : Content) : Option Content :=
  let quoted (quote : Char) (t : Content) : Option Content :=
    match t.dropWhile fun s => !s.test (· == quote) with
    | [] => none
    | _ :: rest => some rest
  match t with
  | [] => none
  | s :: behind =>
    if s.test (· == '\x22') then quoted '\x22' behind
    else if s.test (· == '\x27') then quoted '\x27' behind
    else if isValueSymbol s then some (t.dropWhile isValueSymbol)
    else none

def attribute? (t : Content) : Option Content :=
  match t with
  | [] => none
  | s :: t =>
    if s.test fun c => Text.isLetter c || c == '_' || c == ':' then
      let rest := t.dropWhile (·.test fun c =>
        Text.isLetterOrDigit c || c == '_' || c == '.' || c == ':' || c == '-')
      match rest.dropWhile Symbol.isBlank with
      | .char '=' :: t => value? (t.dropWhile Symbol.isBlank)
      | _ => some rest
    else none

/-- Attributes, each behind white space, up to the mark that ends the tag. -/
def attributes? : Nat → Content → Option Content
  | 0, _ => none
  | fuel + 1, t =>
    let next := t.dropWhile Symbol.isBlank
    match next with
    | .char '/' :: _ => some next
    | .char '>' :: _ => some next
    | _ => if next.length = t.length then none else attribute? next >>= attributes? fuel

def isNameSymbol (s : Symbol) : Bool := s.test fun c => Text.isLetterOrDigit c || c == '-'

def tag? (t : Content) : Option Content :=
  let close (t : Content) : Option Content := Content.after? ['>'] t
  match t with
  | .char '/' :: s :: t =>
    if s.test Text.isLetter then close ((t.dropWhile isNameSymbol).dropWhile Symbol.isSpacing)
    else none
  | s :: t =>
    if s.test Text.isLetter then do
      match ← attributes? (t.length + 1) (t.dropWhile isNameSymbol) with
      | .char '/' :: t => close t
      | t => close t
    else none
  | [] => none

/-- A declaration up to its first closing bracket. That bracket may stand in the margin of a line,
and then the rest of the margin goes with it. -/
def declaration? : Content → Option (Text × Content)
  | [] => none
  | s :: t =>
    if s.raw.any (· == '>') then some (s.raw.takeWhile (· != '>') ++ ['>'], t)
    else (declaration? t).map fun (literal, rest) => (s.raw ++ literal, rest)

/-- Any inline HTML, from behind its opening bracket: its literal and the rest. Only a tag leaves
out what belongs to the containers of the block. -/
def inline? (t : Content) : Option (Text × Content) :=
  let whole (written : Symbol → Text) (rest : Content) : Text × Content :=
    ('<' :: (t.take (t.length - rest.length)).flatMap written, rest)
  let upTo (ending : String) (t : Content) : Option (Text × Content) :=
    (Content.past? ending.toList t).map (whole Symbol.raw)
  match t with
  | .char '?' :: rest => upTo "?>" rest
  | .char '!' :: rest =>
    match Content.after? ['-', '-'] rest with
    | some comment =>
      match Content.after? ['>'] comment <|> Content.after? ['-', '>'] comment with
      | some rest => some (whole Symbol.raw rest)
      | none => upTo "-->" comment
    | none =>
      match Content.after? "[CDATA[".toList rest with
      | some data => upTo "]]>" data
      | none =>
        if rest.head?.any (·.test Text.isLetter) then
          (declaration? rest).map fun (literal, rest) => ('<' :: '!' :: literal, rest)
        else none
  | t => (tag? t).map (whole Symbol.inside)

def isTagLine (t : Text) : Bool :=
  match t with
  | '<' :: t => (tag? (.ofText t)).any (·.all Symbol.isSpacing)
  | _ => false

end CanonMark.Markdown.Html
