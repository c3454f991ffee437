import CanonMark.Text.Alphanumeric
import CanonMark.Text.Blank

/-! # Plain text as markup

Text is written so that reading it back gives the same text. Runs of spaces collapse, and a
character that would be read as markup gets a backslash.
-/
namespace CanonMark.Layout

def unbroken (t : Text) : Text := t.map fun c => if c = '\n' then ' ' else c

def collapse : Text → Text
  | [] => []
  | c :: t => if c = ' ' ∧ t.head? = some ' ' then collapse t else c :: collapse t

def flatten (t : Text) : Text := collapse (unbroken t)

def trimFlatten (t : Text) : Text := Text.trim (flatten t)

def endsReference (least most : Nat) (p : Char → Bool) (t : Text) : Bool :=
  let body := t.takeWhile p
  least ≤ body.length && body.length ≤ most && (t.drop body.length).head? == some ';'

/-- Whether what follows an ampersand has the form of a character reference, known or not. -/
def isReference : Text → Bool
  | '#' :: 'x' :: t => endsReference 1 6 Text.isHexDigit t
  | '#' :: 'X' :: t => endsReference 1 6 Text.isHexDigit t
  | '#' :: t => endsReference 1 7 Text.isDigit t
  | c :: t => Text.isLetter c && endsReference 1 31 Text.isLetterOrDigit t
  | [] => false

/-- Whether a less-than sign with this behind it could open a tag or an autolink. -/
def opensTag : Option Char → Bool
  | none => true
  | some c => Text.isLetterOrDigit c || c == '/' || c == '!' || c == '?'

/-- Whether `c` would be read as markup between the character before it and the text behind it.
An underscore between two alphanumeric characters cannot delimit emphasis. -/
def isMarkup (prev : Option Char) (c : Char) (rest : Text) : Bool :=
  if c == '\\' || c == '*' || c == '\x60' || c == '[' || c == ']' then true
  else if c == '_' then !(prev.any Text.isAlphanumeric && rest.head?.any Text.isAlphanumeric)
  else if c == '<' then opensTag rest.head?
  else if c == '&' then isReference rest
  else false

def escapeFrom (prev : Option Char) : Text → Text
  | [] => []
  | c :: t =>
    if isMarkup prev c t then '\\' :: c :: escapeFrom (some c) t
    else c :: escapeFrom (some c) t

def escape (t : Text) : Text := escapeFrom none t

end CanonMark.Layout
