import CanonMark.Text.Basic

/-! # Settings

A settings file is a TOML document in which only the key `cols` may stand, once, with an integer
that is not negative. So it is read line by line: each line is empty, a comment, or that
assignment.
-/
namespace CanonMark

structure Settings where
  cols : Option Nat
  deriving DecidableEq, Repr

namespace Settings

def isControl (c : Char) : Bool := c.toNat < 32 && c != '\t' || c.toNat == 127

def skipBlank (t : Text) : Text := t.dropWhile Text.isSpaceOrTab

def endsLine (t : Text) : Bool :=
  match skipBlank t with
  | [] => true
  | '#' :: comment => !comment.any isControl
  | _ => false

def codePoint? (digits : Nat) (t : Text) : Option (Char × Text) :=
  let body := t.take digits
  let n := Text.value 16 body
  if body.length = digits && body.all Text.isHexDigit &&
      (n < 0xD800 || 0xE000 ≤ n && n < 0x110000) then
    some (Char.ofNat n, t.drop digits)
  else none

def escaped? (t : Text) : Option (Char × Text) :=
  match t with
  | 'b' :: t => some ('\x08', t)
  | 't' :: t => some ('\t', t)
  | 'n' :: t => some ('\n', t)
  | 'f' :: t => some ('\x0c', t)
  | 'r' :: t => some ('\r', t)
  | '\x22' :: t => some ('\x22', t)
  | '\\' :: t => some ('\\', t)
  | 'u' :: t => codePoint? 4 t
  | 'U' :: t => codePoint? 8 t
  | _ => none

def quotedKey? : Nat → Text → Option (Text × Text)
  | 0, _ => none
  | fuel + 1, t =>
    match t with
    | [] => none
    | '\x22' :: t => some ([], t)
    | '\\' :: t =>
      match escaped? t with
      | some (c, rest) => (quotedKey? fuel rest).map fun (key, rest) => (c :: key, rest)
      | none => none
    | c :: t =>
      if isControl c then none
      else (quotedKey? fuel t).map fun (key, rest) => (c :: key, rest)

def isBareKeyChar (c : Char) : Bool := Text.isLetterOrDigit c || c == '_' || c == '-'

def key? (t : Text) : Option (Text × Text) :=
  match t with
  | '\x22' :: rest => quotedKey? (t.length + 1) rest
  | '\x27' :: rest =>
    let key := rest.takeWhile (· != '\x27')
    if key.any isControl then none
    else (Text.after? ['\x27'] (rest.drop key.length)).map fun rest => (key, rest)
  | _ =>
    let key := t.takeWhile isBareKeyChar
    if key.isEmpty then none else some (key, t.drop key.length)

def digits? (p : Char → Bool) (t : Text) : Option Text :=
  let groups := Text.splitOn '_' t
  if groups.all fun g => !g.isEmpty && g.all p then some groups.flatten else none

def decimal? (t : Text) : Option Nat :=
  match digits? Text.isDigit t with
  | some ds => if ds.head? == some '0' && ds.length > 1 then none else some (Text.value 10 ds)
  | none => none

def natural? (t : Text) : Option Nat :=
  match t with
  | '0' :: 'x' :: t => (digits? Text.isHexDigit t).map (Text.value 16)
  | '0' :: 'o' :: t => (digits? (fun c => '0' ≤ c && c ≤ '7') t).map (Text.value 8)
  | '0' :: 'b' :: t => (digits? (fun c => c == '0' || c == '1') t).map (Text.value 2)
  | '+' :: t => decimal? t
  | '-' :: t => (decimal? t).filter (· == 0)
  | t => decimal? t

def isNumberChar (c : Char) : Bool := Text.isLetterOrDigit c || c == '_' || c == '+' || c == '-'

/-- The largest integer that the format can hold: integers are signed words of 64 bits. -/
def maxValue : Nat := 9223372036854775807

/-- What a line sets, if it is well formed. -/
def line? (line : Text) : Option (Option Nat) :=
  let t := skipBlank line
  if endsLine t then some none
  else
    match key? t with
    | some (key, t) =>
      match skipBlank t with
      | '=' :: t =>
        let t := skipBlank t
        let number := t.takeWhile isNumberChar
        match natural? number with
        | some n =>
          if key == "cols".toList && n ≤ maxValue && endsLine (t.drop number.length) then
            some (some n)
          else none
        | none => none
      | _ => none
    | none => none

def withoutReturn (line : Text) : Text :=
  if line.getLast? == some '\r' then line.dropLast else line

def readLines : List Text → Settings → Option Settings
  | [], s => some s
  | line :: rest, s =>
    match line? line with
    | some none => readLines rest s
    | some (some n) => if s.cols.isSome then none else readLines rest ⟨some n⟩
    | none => none

/-- The lines of a file. Only a line that a line feed ends can have a carriage return at its end. -/
def fileLines (t : Text) : List Text :=
  let pieces := Text.splitOn '\n' t
  pieces.dropLast.map withoutReturn ++ pieces.getLast?.toList

def parse? (t : Text) : Option Settings :=
  let t := if t.head? == some '\uFEFF' then t.drop 1 else t
  readLines (fileLines t) ⟨none⟩

/-- A width that is given wins over the one that is set, and that one over the default. -/
def resolveCols (settings : Option Settings) (explicit : Option Nat) (default : Nat) : Nat :=
  (explicit <|> settings.bind Settings.cols).getD default

end Settings
end CanonMark
