/-! # Text

Text is its list of characters. Every function of this library on text is therefore a recursion on
a list, and nothing depends on how a string is stored.
-/
namespace CanonMark

abbrev Text := List Char

namespace Text

/-- The pieces between the occurrences of `sep`: one piece more than there are occurrences. -/
def splitOn (sep : Char) : Text → List Text
  | [] => [[]]
  | c :: t =>
    if c = sep then [] :: splitOn sep t
    else
      match splitOn sep t with
      | [] => [[c]]
      | piece :: pieces => (c :: piece) :: pieces

/-- The pieces with `sep` between neighbours. -/
def join (sep : Text) : List Text → Text
  | [] => []
  | [piece] => piece
  | piece :: pieces => piece ++ sep ++ join sep pieces

def replace (c : Char) (by_ : Text) (t : Text) : Text :=
  t.flatMap fun d => if d = c then by_ else [d]

def after? (start t : Text) : Option Text :=
  if start.isPrefixOf t then some (t.drop start.length) else none

def holds (piece : Text) : Text → Bool
  | [] => piece.isEmpty
  | c :: t => piece.isPrefixOf (c :: t) || holds piece t

/-- What follows the first occurrence of `piece`, with all that stands before its end. -/
def through? (piece : Text) : Text → Option (Text × Text)
  | [] => if piece.isEmpty then some ([], []) else none
  | c :: t =>
    if piece.isPrefixOf (c :: t) then some (piece, (c :: t).drop piece.length)
    else (through? piece t).map fun (before, rest) => (c :: before, rest)

def runLength (c : Char) (t : Text) : Nat := (t.takeWhile (· == c)).length

def dropEndWhile (p : Char → Bool) (t : Text) : Text := (t.reverse.dropWhile p).reverse

def byteLength (t : Text) : Nat := t.foldl (fun n c => n + c.utf8Size) 0

def ofNat (n : Nat) : Text := Nat.toDigits 10 n

def isDigit (c : Char) : Bool := '0' ≤ c && c ≤ '9'
def isUpper (c : Char) : Bool := 'A' ≤ c && c ≤ 'Z'
def isLower (c : Char) : Bool := 'a' ≤ c && c ≤ 'z'
def isLetter (c : Char) : Bool := isUpper c || isLower c
def isLetterOrDigit (c : Char) : Bool := isLetter c || isDigit c
def isHexDigit (c : Char) : Bool := isDigit c || 'A' ≤ c && c ≤ 'F' || 'a' ≤ c && c ≤ 'f'

def lower (c : Char) : Char := if isUpper c then Char.ofNat (c.toNat + 32) else c

/-- Spaces, tabs, vertical tabs and form feeds: what may stand at the end of a line unseen. -/
def isSpacing (c : Char) : Bool := c == ' ' || c == '\t' || c == '\x0b' || c == '\x0c'

def isAsciiBlank (c : Char) : Bool := isSpacing c || c == '\n' || c == '\r'

def isSpaceOrTab (c : Char) : Bool := c == ' ' || c == '\t'

def digitValue (c : Char) : Nat :=
  if isDigit c then c.toNat - 48
  else if 'a' ≤ c && c ≤ 'f' then c.toNat - 87
  else c.toNat - 55

/-- Reads digits in the given base, the most significant first. -/
def value (base : Nat) (digits : Text) : Nat :=
  digits.foldl (fun n c => n * base + digitValue c) 0

end Text
end CanonMark
