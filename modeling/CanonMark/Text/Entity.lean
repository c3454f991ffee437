import CanonMark.Text.Entity.Names
import CanonMark.Text.Punctuation

/-! # Character references and escapes

A reference stands for a character by its name or its number; a backslash before ASCII punctuation
stands for that character. Link destinations, titles and info strings are decoded by these two
rules.
-/
namespace CanonMark.Text

namespace Entity

/-- The character with a number; numbers of no character, and zero, give the replacement
character. -/
def numbered (n : Nat) : Char :=
  if n == 0 || !(n < 0xD800 || 0xE000 ≤ n && n < 0x110000) then '\uFFFD' else Char.ofNat n

def named? : Text → Option Text
  | [] => none
  | c :: t =>
    ((names c).find? fun entry => entry.1.toList == t).map fun entry => entry.2.map Char.ofNat

/-- Digits in a base, at most `most` of them, up to the semicolon that ends the reference. -/
def number? (base most : Nat) (p : Char → Bool) (t : Text) : Option (Text × Text) :=
  let digits := t.takeWhile p
  if digits.isEmpty || digits.length > most then none
  else
    match t.drop digits.length with
    | ';' :: rest => some ([numbered (value base digits)], rest)
    | _ => none

def read? : Text → Option (Text × Text)
  | '#' :: 'x' :: t => number? 16 6 isHexDigit t
  | '#' :: 'X' :: t => number? 16 6 isHexDigit t
  | '#' :: t => number? 10 7 isDigit t
  | t =>
    let name := t.takeWhile isLetterOrDigit
    match t.drop name.length with
    | ';' :: rest => (named? name).map (·, rest)
    | _ => none

end Entity

/-- Decodes escapes and character references. The fuel bounds the number of characters left. -/
def decodeWith : Nat → Text → Text
  | 0, t => t
  | _, [] => []
  | fuel + 1, '\\' :: c :: t =>
    if isAsciiPunctuation c then c :: decodeWith fuel t
    else '\\' :: decodeWith fuel (c :: t)
  | fuel + 1, '&' :: t =>
    match Entity.read? t with
    | some (meaning, rest) => meaning ++ decodeWith fuel rest
    | none => '&' :: decodeWith fuel t
  | fuel + 1, c :: t => c :: decodeWith fuel t

def decode (t : Text) : Text := decodeWith t.length t

end CanonMark.Text
