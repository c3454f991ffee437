import CanonMark.Proofs.Layout.Escaping
import CanonMark.Proofs.Text.Decoding
import Mathlib.Data.List.TakeWhile
import Mathlib.Data.String.Basic

/-! # What is read as a reference

Escaping decides by the form of a reference alone, whether it names a character or not. Main
statement: whatever is read as a reference has that form, and what stands behind it does not matter.
-/
namespace CanonMark.Layout

open Text (isDigit isHexDigit isLetter isLetterOrDigit)
open Text.Entity (names named? number? read? read?_name read?_number)

theorem names_bytes (c : Char) : ((names c).all fun entry =>
    isLetter c && !Nat.beq entry.1.utf8ByteSize 0 && Nat.ble entry.1.utf8ByteSize 31) = true := by
  unfold names
  split
  all_goals first | decide +kernel | rfl

theorem length_le_utf8Len (t : Text) : t.length ≤ String.utf8Len t := by
  induction t with
  | nil => exact Nat.le_refl 0
  | cons c t ih =>
    have hc := c.utf8Size_pos
    rw [String.utf8Len_cons, List.length_cons]
    omega

theorem named?_form {c : Char} {t meaning : Text} (h : named? (c :: t) = some meaning) :
    isLetter c = true ∧ 1 ≤ t.length ∧ t.length ≤ 31 := by
  obtain ⟨entry, hfind, -⟩ := Option.map_eq_some_iff.mp h
  have hentry : entry.1.toList = t := by simpa using List.find?_some hfind
  have hbytes := List.all_eq_true.mp (names_bytes c) entry (List.mem_of_find?_eq_some hfind)
  rw [← String.utf8Len_toList, hentry] at hbytes
  simp only [Bool.and_eq_true, Bool.not_eq_true', Nat.ble_eq] at hbytes
  obtain ⟨⟨hletter, hpos⟩, hmost⟩ := hbytes
  have hlength := length_le_utf8Len t
  refine ⟨hletter, ?_, by omega⟩
  rw [Nat.one_le_iff_ne_zero, Ne, List.length_eq_zero_iff]
  rintro rfl
  cases hpos

theorem takeWhile_stop {p : Char → Bool} {run : Text} (h : ∀ d ∈ run, p d = true) {c : Char}
    (hc : p c = false) (t : Text) : (run ++ c :: t).takeWhile p = run := by
  rw [List.takeWhile_append_of_pos h, List.takeWhile_cons_of_neg (by simp [hc]), List.append_nil]

theorem number?_form {base most : Nat} {p : Char → Bool} (hp : p ';' = false)
    {t meaning rest : Text} (h : number? base most p t = some (meaning, rest)) :
    ∃ digits, t = digits ++ ';' :: rest ∧ 1 ≤ digits.length ∧ digits.length ≤ most ∧
      (∀ d ∈ digits, p d = true) ∧
      ∀ other, number? base most p (digits ++ ';' :: other) = some (meaning, other) := by
  have hclass : ∀ d ∈ t.takeWhile p, p d = true := fun d hd => List.mem_takeWhile_imp hd
  have hsplit := List.prefix_iff_eq_append.mp (List.takeWhile_prefix p (l := t))
  simp only [number?] at h
  split at h
  · cases h
  · next hcount =>
    have hbounds := hcount
    simp only [Bool.or_eq_true, List.isEmpty_iff, decide_eq_true_eq, not_or] at hbounds
    have hpos := List.length_pos_iff.mpr hbounds.1
    split at h
    · next behind hdrop =>
      obtain ⟨hmeaning, rfl⟩ : _ = meaning ∧ behind = rest := by simpa using h
      rw [hdrop] at hsplit
      refine ⟨_, hsplit.symm, by omega, by omega, hclass, fun other => ?_⟩
      simp only [number?, takeWhile_stop hclass hp, if_neg hcount, List.drop_left, hmeaning]
    · cases h

/-- What is read as a reference has its form, and is read in the same way whatever stands behind the
semicolon. -/
theorem reference_of_read {t meaning rest : Text} (h : read? t = some (meaning, rest)) :
    ∃ body, t = body ++ ';' :: rest ∧ ReferenceBody body ∧
      ∀ other, read? (body ++ ';' :: other) = some (meaning, other) := by
  by_cases hhash : t.head? = some '#'
  · obtain ⟨t, rfl⟩ := List.head?_eq_some_iff.mp hhash
    by_cases hhex : ∃ x u, t = x :: u ∧ (x = 'x' ∨ x = 'X')
    · obtain ⟨x, u, rfl, hx⟩ := hhex
      have hnumber : ∀ v, read? ('#' :: x :: v) = number? 16 6 isHexDigit v := by
        intro v
        rcases hx with rfl | rfl <;> rfl
      rw [hnumber] at h
      obtain ⟨digits, rfl, hlo, hhi, hdigits, hread⟩ := number?_form rfl h
      exact ⟨'#' :: x :: digits, rfl, .hexadecimal hx hlo hhi hdigits,
        fun other => (hnumber _).trans (hread other)⟩
    · have hnumber : ∀ v : Text, v.head? = t.head? → read? ('#' :: v) = number? 10 7 isDigit v := by
        intro v hv
        refine read?_number (fun hx => hhex ?_) (fun hx => hhex ?_)
        · obtain ⟨u, hu⟩ := List.head?_eq_some_iff.mp (hv.symm.trans hx)
          exact ⟨_, u, hu, .inl rfl⟩
        · obtain ⟨u, hu⟩ := List.head?_eq_some_iff.mp (hv.symm.trans hx)
          exact ⟨_, u, hu, .inr rfl⟩
      rw [hnumber t rfl] at h
      obtain ⟨digits, rfl, hlo, hhi, hdigits, hread⟩ := number?_form rfl h
      refine ⟨'#' :: digits, rfl, .decimal hlo hhi hdigits, fun other => ?_⟩
      refine (hnumber _ ?_).trans (hread other)
      cases digits <;> rfl
  · rw [read?_name hhash] at h
    have hclass : ∀ d ∈ t.takeWhile isLetterOrDigit, isLetterOrDigit d = true :=
      fun d hd => List.mem_takeWhile_imp hd
    have hsplit := List.prefix_iff_eq_append.mp (List.takeWhile_prefix isLetterOrDigit (l := t))
    generalize t.takeWhile isLetterOrDigit = name at h hclass hsplit
    split at h
    · next behind hdrop =>
      obtain ⟨found, hname, hpair⟩ := Option.map_eq_some_iff.mp h
      obtain ⟨rfl, rfl⟩ : found = meaning ∧ behind = rest := by simpa using hpair
      rw [hdrop] at hsplit
      cases name with
      | nil => cases hname
      | cons c name =>
        obtain ⟨hletter, hlo, hhi⟩ := named?_form hname
        refine ⟨c :: name, hsplit.symm, .named hletter hlo hhi fun d hd => hclass d (by simp [hd]),
          fun other => ?_⟩
        have hhead : (c :: name ++ ';' :: other).head? ≠ some '#' := by
          rw [← hsplit] at hhash
          exact hhash
        rw [read?_name hhead, takeWhile_stop hclass rfl, List.drop_left, hname]
        rfl
    · cases h

theorem beginsReference_of_read {t meaning rest : Text} (h : read? t = some (meaning, rest)) :
    BeginsReference t := by
  obtain ⟨body, hsplit, hbody, -⟩ := reference_of_read h
  exact ⟨body, rest, hsplit, hbody⟩

end CanonMark.Layout
