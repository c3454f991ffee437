import CanonMark.Text.Basic

/-! # UTF-8

Decoding reports where the first ill-formed sequence begins and how long its longest part is that a
well-formed character could begin with.
-/
namespace CanonMark

abbrev Bytes := List UInt8

namespace Utf8

inductive Fault where
  /-- An ill-formed sequence of so many bytes behind the valid bytes. -/
  | invalid (length index : Nat)
  /-- The bytes end within a character that begins behind the valid bytes. -/
  | incomplete (index : Nat)
  deriving DecidableEq, Repr

def Fault.message : Fault → Text
  | .invalid length index =>
    "invalid utf-8 sequence of ".toList ++ Text.ofNat length ++ " bytes from index ".toList ++
      Text.ofNat index
  | .incomplete index => "incomplete utf-8 byte sequence from index ".toList ++ Text.ofNat index

/-- The first byte of a character of several bytes fixes how many follow and what the second one
may be. -/
structure Opening where
  following : Nat
  low : UInt8
  high : UInt8
  deriving DecidableEq, Repr

def opening? (b : UInt8) : Option Opening :=
  if 0xC2 ≤ b && b ≤ 0xDF then some ⟨1, 0x80, 0xBF⟩
  else if b == 0xE0 then some ⟨2, 0xA0, 0xBF⟩
  else if b == 0xED then some ⟨2, 0x80, 0x9F⟩
  else if 0xE1 ≤ b && b ≤ 0xEF then some ⟨2, 0x80, 0xBF⟩
  else if b == 0xF0 then some ⟨3, 0x90, 0xBF⟩
  else if 0xF1 ≤ b && b ≤ 0xF3 then some ⟨3, 0x80, 0xBF⟩
  else if b == 0xF4 then some ⟨3, 0x80, 0x8F⟩
  else none

def isTail (b : UInt8) : Bool := 0x80 ≤ b && b ≤ 0xBF

/-- The code point of a first byte, which keeps its low bits, and of the bytes behind it. -/
def codePoint (first : UInt8) (lowBits : Nat) (tail : Bytes) : Char :=
  Char.ofNat (tail.foldl (fun n b => n * 64 + (b.toNat - 0x80)) (first.toNat % lowBits))

def decodeFrom (index : Nat) : Bytes → Except Fault Text
  | [] => .ok []
  | a :: s =>
    if a < 0x80 then (Char.ofNat a.toNat :: ·) <$> decodeFrom (index + 1) s
    else
      match opening? a with
      | none => .error (.invalid 1 index)
      | some o =>
        match s with
        | [] => .error (.incomplete index)
        | b :: s =>
          if !(o.low ≤ b && b ≤ o.high) then .error (.invalid 1 index)
          else if o.following = 1 then
            (codePoint a 32 [b] :: ·) <$> decodeFrom (index + 2) s
          else
            match s with
            | [] => .error (.incomplete index)
            | c :: s =>
              if !isTail c then .error (.invalid 2 index)
              else if o.following = 2 then
                (codePoint a 16 [b, c] :: ·) <$> decodeFrom (index + 3) s
              else
                match s with
                | [] => .error (.incomplete index)
                | d :: s =>
                  if !isTail d then .error (.invalid 3 index)
                  else (codePoint a 8 [b, c, d] :: ·) <$> decodeFrom (index + 4) s

def decode (bytes : Bytes) : Except Fault Text := decodeFrom 0 bytes

def encode (t : Text) : Bytes := t.flatMap String.utf8EncodeChar

end Utf8
end CanonMark
