import CanonMark.Markdown.Content
import CanonMark.Text.Entity
import CanonMark.Text.Fold

/-! # Links: destinations, titles, labels and definitions

Each function that reads gives what it read and the rest.
-/
namespace CanonMark.Markdown

def before (read : Text) (r : Text × Content) : Text × Content := (read ++ r.1, r.2)

def Symbol.isEscapable (s : Symbol) : Bool := s.char?.any Text.isAsciiPunctuation

def bracketed? : Content → Option (Text × Content)
  | [] => none
  | .char '>' :: t => some ([], t)
  | .char '\\' :: s :: t =>
    if s.isEscapable then before ('\\' :: s.char?.toList) <$> bracketed? t
    else before ['\\'] <$> bracketed? (s :: t)
  | s :: t => if s.isNewline || s.test (· == '<') then none
    else before s.char?.toList <$> bracketed? t

def maxParentheses : Nat := 32

/-- A destination without angle brackets: no control character or space, and balanced
parentheses. -/
def bare? (depth : Nat) : Content → Option (Text × Content)
  | [] => if depth = 0 then some ([], []) else none
  | .char '\\' :: s :: t =>
    if s.isEscapable then before ('\\' :: s.char?.toList) <$> bare? depth t
    else before ['\\'] <$> bare? depth (s :: t)
  | s :: t =>
    match s.char? with
    | none => if depth = 0 then some ([], s :: t) else none
    | some c =>
      if c.toNat ≤ 32 || c == ')' && depth == 0 then
        if depth = 0 then some ([], s :: t) else none
      else if c == '(' then
        if depth > maxParentheses then none else before [c] <$> bare? (depth + 1) t
      else if c == ')' then before [c] <$> bare? (depth - 1) t
      else before [c] <$> bare? depth t

def destination? (t : Content) : Option (Text × Content) :=
  match t with
  | .char '<' :: t => bracketed? t
  | t => bare? 0 t

/-- The content of a title up to its closing mark. Of a line break only its end is kept, in the form
that `lineEnd` gives it. -/
def titleBody? (opening closing : Char) (lineEnd : Text → Text) :
    Content → Option (Text × Content)
  | [] => none
  | .char '\\' :: s :: t =>
    if s.isEscapable then before ('\\' :: s.char?.toList) <$> titleBody? opening closing lineEnd t
    else before ['\\'] <$> titleBody? opening closing lineEnd (s :: t)
  | .newline b :: t => before (lineEnd b.ending) <$> titleBody? opening closing lineEnd t
  | s :: t =>
    if s.test (· == closing) then some ([], t)
    else if s.test (· == opening) then none
    else before s.char?.toList <$> titleBody? opening closing lineEnd t

def title? (lineEnd : Text → Text) (t : Content) : Option (Text × Content) :=
  let read (opening closing : Char) (t : Content) : Option (Text × Content) :=
    (titleBody? opening closing lineEnd t).map fun (body, rest) => (Text.decode body, rest)
  match t with
  | .char '\x22' :: t => read '\x22' '\x22' t
  | .char '\x27' :: t => read '\x27' '\x27' t
  | .char '(' :: t => read '(' ')' t
  | _ => none

/-- Passes spacing with at most one line break in it, and says whether a line ended. -/
def separator (t : Content) : Bool × Content :=
  match t.dropWhile Symbol.isSpacing with
  | [] => (true, [])
  | .newline _ :: rest => (true, rest.dropWhile Symbol.isSpacing)
  | rest => (false, rest)

/-- In the title of an inline link a line end stays as it is, but a lone carriage return is read as
a line feed. -/
def inlineTitleEnd (ending : Text) : Text := if ending == ['\r'] then ['\n'] else ending

def target? (t : Content) : Option (Text × Text × Content) :=
  match t with
  | .char '(' :: t => do
    let (destination, t) ← destination? (separator t).2
    let t := (separator t).2
    let (title, t) :=
      match title? inlineTitleEnd t with
      | some (title, t) => (title, (separator t).2)
      | none => ([], t)
    match t with
    | .char ')' :: rest => some (Text.decode destination, title, rest)
    | _ => none
  | _ => none

/-- White space between words becomes one space; `gap` tells that some was passed. -/
def collapseBlanks (gap : Bool) : Text → Text
  | [] => []
  | c :: t =>
    if Text.isAsciiBlank c then collapseBlanks true t
    else if gap then ' ' :: c :: collapseBlanks false t
    else c :: collapseBlanks false t

def normalLabel (t : Text) : Text :=
  Text.fold (collapseBlanks false (t.dropWhile Text.isAsciiBlank))

def maxLabelWeight : Nat := 1000

/-- What a symbol weighs in a label: white space counts with all that is written, a character beyond
ASCII with its bytes, and any other character not at all. -/
def Symbol.labelWeight (s : Symbol) : Nat :=
  match s with
  | .char c => if Text.isAsciiBlank c then 1 else if c.toNat < 128 then 0 else c.utf8Size
  | .pipe => 1
  | s => s.raw.length

structure Label where
  text : Text
  /-- Whether it has a character that is neither white space nor escaped. -/
  solid : Bool
  rest : Content
  deriving Repr

def Label.before (t : Text) (solid : Bool) (l : Label) : Label :=
  { l with text := t ++ l.text, solid := solid || l.solid }

/-- A label from behind its opening bracket: up to the next bracket, which must be a closing one.
What is read already weighs `weight`. -/
def labelBody? (weight : Nat) : Content → Option Label
  | [] => none
  | .char '\\' :: s :: t =>
    if weight ≥ maxLabelWeight then none
    else
      .before ('\\' :: s.char?.getD '\n' :: []) (s.labelWeight > 1 && !s.isNewline) <$>
        labelBody? (weight + 1 + max 1 s.labelWeight) t
  | s :: t =>
    if weight ≥ maxLabelWeight then none
    else if s.test (· == ']') then some ⟨[], false, t⟩
    else if s.test (· == '[') then none
    else
      .before [s.char?.getD ' '] (s.test fun c => !Text.isAsciiBlank c) <$>
        labelBody? (weight + s.labelWeight) t

def label? (t : Content) : Option (Text × Content) :=
  match labelBody? 0 t with
  | some l => if l.solid then some (normalLabel l.text, l.rest) else none
  | none => none

structure Definition where
  label : Text
  destination : Text
  title : Text
  deriving DecidableEq, Repr

def lookup? (definitions : List Definition) (label : Text) : Option Definition :=
  definitions.find? fun d => d.label == label

def endsLine (t : Content) : Bool := (t.takeWhile (!·.isNewline)).all Symbol.isSpacing

/-- A definition at the front of the content, and how many line breaks it passes. Behind the label
no line may have the form of an underline. A title that does not end its line is none: if it stands
on a line of its own the definition ends before it, else there is no definition. -/
def definition? (t : Content) : Option (Definition × Nat) :=
  match t with
  | .char '[' :: inner => do
    let (label, behind) ← label? inner
    let colon ← Content.after? [':'] behind
    let body : Content := colon.takeWhile (!·.isUnderlined)
    let start := (separator body).2
    let (destination, rest) ← destination? start
    if rest.length = start.length then none
    else
      let untitled : Definition := ⟨label, Text.decode destination, []⟩
      let passed (rest : Content) : Nat := t.breaks - colon.breaks + (body.breaks - rest.breaks)
      let (lineEnded, next) := separator rest
      if !lineEnded && next.length = rest.length then none
      else
        let fallback := if lineEnded then some (untitled, passed rest) else none
        match title? (fun _ => ['\n']) next with
        | some (title, behind) =>
          if endsLine behind then some ({ untitled with title }, passed behind) else fallback
        | none => fallback
  | _ => none

end CanonMark.Markdown
