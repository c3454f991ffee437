import CanonMark.Text.Basic
import CanonMark.Text.Blank
import Mathlib.Data.List.DropRight

/-! # Trimming

Dropping a class of characters at both ends leaves a stretch of the text with none of them at
either end, so doing it again changes nothing.
-/
namespace CanonMark.Text

theorem infix_strip (p : Char → Bool) (t : Text) : dropEndWhile p (t.dropWhile p) <:+: t := by
  have hfront : dropEndWhile p (t.dropWhile p) <+: t.dropWhile p := List.rdropWhile_prefix p _
  have hback : t.dropWhile p <:+ t := List.dropWhile_suffix p
  exact hfront.isInfix.trans hback.isInfix

theorem head?_strip {p : Char → Bool} {t : Text} {c : Char}
    (h : (dropEndWhile p (t.dropWhile p)).head? = some c) : p c = false := by
  obtain ⟨u, hu⟩ := List.head?_eq_some_iff.mp h
  obtain ⟨rest, hrest⟩ : dropEndWhile p (t.dropWhile p) <+: t.dropWhile p :=
    List.rdropWhile_prefix p _
  have hfirst := List.head?_dropWhile_not p t
  rw [← hrest, hu] at hfirst
  exact hfirst

theorem getLast?_dropEndWhile {p : Char → Bool} {t : Text} {c : Char}
    (h : (dropEndWhile p t).getLast? = some c) : p c = false := by
  have hsome : (t.rdropWhile p).getLast? = some c := h
  have hne : t.rdropWhile p ≠ [] := by
    intro hnil
    rw [hnil] at hsome
    cases hsome
  have hlast := List.rdropWhile_last_not p t hne
  rw [List.getLast?_eq_some_getLast hne] at hsome
  rw [Option.some.inj hsome] at hlast
  exact Bool.eq_false_iff.mpr hlast

theorem dropWhile_strip (p : Char → Bool) (t : Text) :
    (dropEndWhile p (t.dropWhile p)).dropWhile p = dropEndWhile p (t.dropWhile p) := by
  cases hstrip : dropEndWhile p (t.dropWhile p) with
  | nil => rfl
  | cons c u =>
    have hfirst : p c = false := head?_strip (by rw [hstrip, List.head?_cons])
    exact List.dropWhile_cons_of_neg (Bool.eq_false_iff.mp hfirst)

theorem trim_trim (t : Text) : trim (trim t) = trim t :=
  calc trim (trim t)
    _ = dropEndWhile isBlank ((trim t).dropWhile isBlank) := rfl
    _ = dropEndWhile isBlank (trim t) := by rw [trim, dropWhile_strip]
    _ = trim t := List.rdropWhile_idempotent isBlank _

end CanonMark.Text
