import CanonMark.Text.Utf8
import Mathlib.Data.List.Lex

/-! # The order of bytes

UTF-8 keeps the order of code points: of two characters the one with the smaller code has the
smaller first byte, or the same bytes up to a smaller one. So texts come in the same order whether
they are compared by their characters or by their bytes.
-/
namespace CanonMark

namespace Text

def CodesBefore (a b : Text) : Prop := List.Lex (fun c d => c.toNat < d.toNat) a b

end Text

namespace Utf8

def BytesBefore (s t : Bytes) : Prop := List.Lex (fun b c => b.toNat < c.toNat) s t

theorem lex_map_iff {α β : Type} {r : β → β → Prop} {f : α → β} (hf : Function.Injective f)
    {l m : List α} :
    List.Lex r (l.map f) (m.map f) ↔ List.Lex (fun a b => r (f a) (f b)) l m := by
  constructor
  · intro h
    induction l generalizing m with
    | nil =>
      cases m with
      | nil => cases h
      | cons b m => exact .nil
    | cons a l ih =>
      cases m with
      | nil => cases h
      | cons b m =>
        rw [List.map_cons, List.map_cons] at h
        generalize hfa : f a = x at h
        generalize hfb : f b = y at h
        cases h with
        | rel hxy => exact .rel (by rwa [hfa, hfb])
        | cons hrest =>
          obtain rfl : a = b := hf (hfa.trans hfb.symm)
          exact .cons (ih hrest)
  · intro h
    induction h with
    | nil => exact .nil
    | rel hab => exact .rel hab
    | cons _ ih => exact .cons ih

theorem bytesBefore_irrefl (s : Bytes) : ¬ BytesBefore s s := by
  induction s with
  | nil => intro h; cases h
  | cons b s ih =>
    intro h
    cases h with
    | rel hb => exact Nat.lt_irrefl _ hb
    | cons h => exact ih h

theorem BytesBefore.asymm {s t : Bytes} (h : BytesBefore s t) : ¬ BytesBefore t s := by
  intro hback
  induction h with
  | nil => cases hback
  | rel hlt =>
    cases hback with
    | rel hgt => exact Nat.lt_asymm hlt hgt
    | cons _ => exact Nat.lt_irrefl _ hlt
  | cons _ ih =>
    cases hback with
    | rel hlt => exact Nat.lt_irrefl _ hlt
    | cons hback => exact ih hback

theorem codesBefore_trichotomy (a b : Text) :
    Text.CodesBefore a b ∨ a = b ∨ Text.CodesBefore b a := by
  induction a generalizing b with
  | nil =>
    cases b with
    | nil => exact .inr (.inl rfl)
    | cons d b => exact .inl .nil
  | cons c a ih =>
    cases b with
    | nil => exact .inr (.inr .nil)
    | cons d b =>
      rcases Nat.lt_trichotomy c.toNat d.toNat with hlt | heq | hgt
      · exact .inl (.rel hlt)
      · obtain rfl : c = d := Char.toNat_inj.mp heq
        rcases ih b with h | rfl | h
        · exact .inl (.cons h)
        · exact .inr (.inl rfl)
        · exact .inr (.inr (.cons h))
      · exact .inr (.inr (.rel hgt))

/-- The number of the first byte of a character, from its code. -/
def lead (code : Nat) : Nat :=
  if code < 0x80 then code
  else if code < 0x800 then code / 64 + 0xC0
  else if code < 0x10000 then code / 4096 + 0xE0
  else code / 262144 + 0xF0

def digit (code : Nat) : UInt8 := UInt8.ofNat (code % 64 + 0x80)

def trail (code : Nat) : Bytes :=
  if code < 0x80 then []
  else if code < 0x800 then [digit code]
  else if code < 0x10000 then [digit (code / 64), digit code]
  else [digit (code / 4096), digit (code / 64), digit code]

theorem code_lt (c : Char) : c.toNat < 0x110000 := by
  rcases c.valid with h | h
  · exact Nat.lt_trans h (by decide)
  · exact h.2

theorem encodeChar_eq (c : Char) :
    String.utf8EncodeChar c = UInt8.ofNat (lead c.toNat) :: trail c.toNat := by
  have hcode := code_lt c
  change String.utf8EncodeChar c = UInt8.ofNat (lead c.val.toNat) :: trail c.val.toNat
  change c.val.toNat < _ at hcode
  unfold String.utf8EncodeChar lead trail digit
  generalize c.val.toNat = v at hcode ⊢
  by_cases h1 : v < 0x80
  · rw [if_pos h1, if_pos h1]
    exact if_pos (by omega)
  · by_cases h2 : v < 0x800
    · have hfirst : v / 64 % 32 + 192 = v / 64 + 0xC0 := by omega
      rw [if_neg h1, if_neg h1, if_pos h2, if_pos h2, ← hfirst]
      exact (if_neg (by omega)).trans (if_pos (by omega))
    · by_cases h3 : v < 0x10000
      · have hfirst : v / 4096 % 16 + 224 = v / 4096 + 0xE0 := by omega
        rw [if_neg h1, if_neg h1, if_neg h2, if_neg h2, if_pos h3, if_pos h3, ← hfirst]
        exact (if_neg (by omega)).trans ((if_neg (by omega)).trans (if_pos (by omega)))
      · have hfirst : v / 262144 % 8 + 240 = v / 262144 + 0xF0 := by omega
        rw [if_neg h1, if_neg h1, if_neg h2, if_neg h2, if_neg h3, if_neg h3, ← hfirst]
        exact (if_neg (by omega)).trans ((if_neg (by omega)).trans (if_neg (by omega)))

theorem lead_lt {code : Nat} (h : code < 0x110000) : lead code < 256 := by
  unfold lead
  split
  · omega
  · split
    · omega
    · split <;> omega

theorem lead_le {v w : Nat} (h : v < w) : lead v ≤ lead w := by
  unfold lead
  split
  · split
    · omega
    · split
      · omega
      · split <;> omega
  · have hw : ¬ w < 0x80 := by omega
    rw [if_neg hw]
    split
    · split
      · omega
      · split <;> omega
    · have hw : ¬ w < 0x800 := by omega
      rw [if_neg hw]
      split
      · split <;> omega
      · have hw : ¬ w < 0x10000 := by omega
        rw [if_neg hw]
        omega

theorem bytesBefore_cons {m n : Nat} (hm : m < 256) (hn : n < 256) {s t : Bytes}
    (h : m < n ∨ m = n ∧ BytesBefore s t) :
    BytesBefore (UInt8.ofNat m :: s) (UInt8.ofNat n :: t) := by
  rcases h with hlt | ⟨rfl, hrest⟩
  · refine .rel ?_
    rw [UInt8.toNat_ofNat', UInt8.toNat_ofNat']
    omega
  · exact .cons hrest

/-- A byte of a smaller code comes first, and bytes of codes with the same last digit are decided by
what follows. -/
theorem bytesBefore_digit {v w : Nat} {s t : Bytes}
    (h : v % 64 < w % 64 ∨ v % 64 = w % 64 ∧ BytesBefore s t) :
    BytesBefore (digit v :: s) (digit w :: t) :=
  bytesBefore_cons (by omega) (by omega) (h.imp (by omega) (.imp_left (by omega)))

theorem lead_classes (code : Nat) : (lead code < 0x80 ↔ code < 0x80) ∧
    (lead code < 0xE0 ↔ code < 0x800) ∧ (lead code < 0xF0 ↔ code < 0x10000) := by
  unfold lead
  split
  · omega
  · split
    · omega
    · split <;> omega

theorem bytesBefore_trail {v w : Nat} (h : v < w) (hlead : lead v = lead w) (s t : Bytes) :
    BytesBefore (trail v ++ s) (trail w ++ t) := by
  obtain ⟨hv1, hv2, hv3⟩ := lead_classes v
  rw [hlead] at hv1 hv2 hv3
  have h1 : v < 0x80 ↔ w < 0x80 := hv1.symm.trans (lead_classes w).1
  have h2 : v < 0x800 ↔ w < 0x800 := hv2.symm.trans (lead_classes w).2.1
  have h3 : v < 0x10000 ↔ w < 0x10000 := hv3.symm.trans (lead_classes w).2.2
  unfold lead at hlead
  unfold trail
  rw [← if_congr h1 rfl rfl, ← if_congr h2 rfl rfl, ← if_congr h3 rfl rfl] at hlead ⊢
  by_cases hv1 : v < 0x80
  · rw [if_pos hv1, if_pos hv1] at hlead
    omega
  rw [if_neg hv1, if_neg hv1] at hlead ⊢
  by_cases hv2 : v < 0x800
  · rw [if_pos hv2, if_pos hv2] at hlead ⊢
    exact bytesBefore_digit (.inl (by omega))
  · rw [if_neg hv2, if_neg hv2] at hlead ⊢
    by_cases hv3 : v < 0x10000
    · rw [if_pos hv3, if_pos hv3] at hlead ⊢
      refine bytesBefore_digit ?_
      by_cases hnext : v / 64 = w / 64
      · exact .inr ⟨by omega, bytesBefore_digit (.inl (by omega))⟩
      · exact .inl (by omega)
    · rw [if_neg hv3, if_neg hv3] at hlead ⊢
      refine bytesBefore_digit ?_
      by_cases hnext : v / 4096 = w / 4096
      · refine .inr ⟨by omega, bytesBefore_digit ?_⟩
        by_cases hlast : v / 64 = w / 64
        · exact .inr ⟨by omega, bytesBefore_digit (.inl (by omega))⟩
        · exact .inl (by omega)
      · exact .inl (by omega)

/-- Of two characters the bytes of the one with the smaller code come first, whatever follows. -/
theorem bytesBefore_encodeChar {c d : Char} (h : c.toNat < d.toNat) (s t : Bytes) :
    BytesBefore (String.utf8EncodeChar c ++ s) (String.utf8EncodeChar d ++ t) := by
  rw [encodeChar_eq, encodeChar_eq]
  refine bytesBefore_cons (lead_lt (code_lt c)) (lead_lt (code_lt d)) ?_
  rcases Nat.lt_or_eq_of_le (lead_le h) with hlt | heq
  · exact .inl hlt
  · exact .inr ⟨heq, bytesBefore_trail h heq s t⟩

theorem encode_cons (c : Char) (a : Text) :
    encode (c :: a) = String.utf8EncodeChar c ++ encode a :=
  List.flatMap_cons

theorem bytesBefore_encode {a b : Text} (h : Text.CodesBefore a b) :
    BytesBefore (encode a) (encode b) := by
  induction h with
  | @nil d b =>
    rw [encode_cons, encodeChar_eq]
    exact .nil
  | @rel c a d b hlt =>
    rw [encode_cons, encode_cons]
    exact bytesBefore_encodeChar hlt _ _
  | @cons c a b _ ih =>
    rw [encode_cons, encode_cons]
    exact List.Lex.append_left _ ih _

theorem encode_injective : Function.Injective encode := by
  intro a b heq
  rcases codesBefore_trichotomy a b with h | h | h
  · have hbytes := bytesBefore_encode h
    rw [heq] at hbytes
    exact absurd hbytes (bytesBefore_irrefl _)
  · exact h
  · have hbytes := bytesBefore_encode h
    rw [heq] at hbytes
    exact absurd hbytes (bytesBefore_irrefl _)

/-- Texts come in the same order by their characters and by their bytes. -/
theorem bytesBefore_encode_iff {a b : Text} :
    BytesBefore (encode a) (encode b) ↔ Text.CodesBefore a b := by
  constructor
  · intro h
    rcases codesBefore_trichotomy a b with hab | rfl | hba
    · exact hab
    · exact absurd h (bytesBefore_irrefl _)
    · exact absurd h (bytesBefore_encode hba).asymm
  · exact bytesBefore_encode

end Utf8
end CanonMark
