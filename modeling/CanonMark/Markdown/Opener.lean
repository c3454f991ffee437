import CanonMark.Document.Node
import CanonMark.Markdown.Content
import CanonMark.Markdown.Line
import CanonMark.Text.Entity

/-! # What a line can open

Each function looks at the text of a line behind its indentation.
-/
namespace CanonMark.Markdown

def isThematicBreak (t : Text) : Bool :=
  match t with
  | [] => false
  | c :: _ =>
    (c == '*' || c == '-' || c == '_') && t.all (fun d => d == c || Text.isSpaceOrTab d) &&
      t.count c ≥ 3

def headingLevel? (t : Text) : Option Nat :=
  let level := Text.runLength '#' t
  if 1 ≤ level && level ≤ 6 && (t.drop level).head?.all Text.isAsciiBlank then some level else none

/-- The content of a heading without a closing sequence of hash marks, which must stand behind a
space unless nothing stands before it. -/
def headingContent (t : Text) : Content :=
  let content := Text.dropEndWhile (· == ' ') (t.dropWhile Text.isSpacing)
  let body := Text.dropEndWhile (· == '#') content
  if body.isEmpty then []
  else if body.getLast? == some ' ' then
    Content.ofText (Text.dropEndWhile (· == ' ') body) ++ [.cut]
  else
    let core := Text.dropEndWhile Text.isSpacing content
    Content.ofText core ++
      if core.length = content.length then [] else [.trail (content.drop core.length)]

/-- A fence of three or more backticks or tildes: its mark and length. Behind backticks no further
backtick may stand. -/
def fence? (t : Text) : Option (Char × Nat) :=
  match t with
  | [] => none
  | c :: _ =>
    let length := Text.runLength c t
    if length < 3 then none
    else if c == '~' then some (c, length)
    else if c == '\x60' && !(t.drop length).any (· == '\x60') then some (c, length)
    else none

/-- Whether a line closes a fence of this mark and length. Only spaces may stand behind it. -/
def closesFence (mark : Char) (length : Nat) (t : Text) : Bool :=
  Text.runLength mark t ≥ length && (t.drop (Text.runLength mark t)).all (· == ' ')

def underlineLevel? (t : Text) : Option Nat :=
  match t with
  | [] => none
  | c :: _ =>
    if (c == '=' || c == '-') && isBlankText (t.drop (Text.runLength c t)) then
      some (if c == '=' then 1 else 2)
    else none

/-- The mark that all items of a list share: a bullet, or what stands behind the number. -/
structure ListMark where
  char : Char
  deriving DecidableEq, Repr

def ListMark.ordered (m : ListMark) : Bool := m.char == '.' || m.char == ')'

/-- A list marker: its mark, its number if it has one, and how many characters it takes. -/
def listMarker? (t : Text) : Option (ListMark × Nat × Nat) :=
  match t with
  | [] => none
  | c :: _ =>
    let found :=
      if c == '-' || c == '+' || c == '*' then some (⟨c⟩, 0, 1)
      else
        let digits := t.takeWhile Text.isDigit
        if digits.isEmpty || digits.length > 9 then none
        else
          match (t.drop digits.length).head? with
          | some d =>
            if d == '.' || d == ')' then some (⟨d⟩, Text.value 10 digits, digits.length + 1)
            else none
          | none => none
    found.filter fun (_, _, length) => (t.drop length).head?.all Text.isSpaceOrTab

/-- Whether the text begins with a start tag, an end tag or another opening of an HTML block that
ends with a fixed text: that text. -/
def htmlEnd? (t : Text) : Option Text :=
  let named (name : String) : Option Text :=
    let opening := '<' :: name.toList
    if opening.isPrefixOf (t.map Text.lower) &&
        (t.drop opening.length).head?.all (fun c => Text.isAsciiBlank c || c == '>') then
      some ("</".toList ++ name.toList ++ ['>'])
    else none
  let plain (opening ending : String) : Option Text :=
    if opening.toList.isPrefixOf t then some ending.toList else none
  match [named "pre", named "style", named "script", named "textarea", plain "<!--" "-->",
      plain "<?" "?>", plain "<![CDATA[" "]]>"].findSome? id with
  | some ending => some ending
  | none =>
    match t with
    | '<' :: '!' :: c :: _ => if Text.isLetter c then some ['>'] else none
    | _ => none

def blockTags : List String :=
  ["address", "article", "aside", "base", "basefont", "blockquote", "body", "caption", "center",
   "col", "colgroup", "dd", "details", "dialog", "dir", "div", "dl", "dt", "fieldset",
   "figcaption", "figure", "footer", "form", "frame", "frameset", "h1", "h2", "h3", "h4", "h5",
   "h6", "head", "header", "hr", "html", "iframe", "legend", "li", "link", "main", "menu",
   "menuitem", "nav", "noframes", "ol", "optgroup", "option", "p", "param", "search", "section",
   "summary", "table", "tbody", "td", "tfoot", "th", "thead", "title", "tr", "track", "ul"]

def opensBlockTag (t : Text) : Bool :=
  match t with
  | '<' :: t =>
    let t := if t.head? == some '/' then t.drop 1 else t
    let name := t.takeWhile Text.isLetterOrDigit
    let rest := t.drop name.length
    blockTags.any (fun tag => tag.toList == name.map Text.lower) &&
      (rest.head?.all (fun c => Text.isSpaceOrTab c || c == '>') || "/>".toList.isPrefixOf rest)
  | _ => false

end CanonMark.Markdown
