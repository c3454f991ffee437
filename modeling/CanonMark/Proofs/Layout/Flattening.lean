import CanonMark.Proofs.Layout.Reflow
import CanonMark.Proofs.Runs
import CanonMark.Proofs.Text.Trimming

/-! # Flattened text

Headings, emphasis and descriptions of images join the texts of several nodes and flatten what they
get. Main statement: flattening puts one space in the place of each maximal run of spaces and line
feeds, it may be done to the parts of a text first, and doing it again, with or without trimming,
changes nothing. Trimming takes away more kinds of white space than flattening evens out, but it
leaves a stretch of the text, and a stretch of a flat text is flat.
-/
namespace CanonMark.Layout

structure Flat (t : Text) : Prop where
  unbroken : '\n' ∉ t
  apart : t.IsChain fun c d => ¬(c = ' ' ∧ d = ' ')

theorem Flat.stretch {s t : Text} (ht : Flat t) (h : s <:+: t) : Flat s :=
  ⟨fun hs => ht.unbroken (h.subset hs), List.IsChain.infix ht.apart h⟩

theorem collapse_apart (t : Text) : (collapse t).IsChain fun c d => ¬(c = ' ' ∧ d = ' ') := by
  induction t with
  | nil => exact .nil
  | cons c t ih =>
    rw [collapse]
    split
    · exact ih
    · next hkept =>
      refine List.isChain_cons.mpr ⟨?_, ih⟩
      rintro d hd ⟨rfl, rfl⟩
      rw [head?_collapse] at hd
      exact hkept ⟨rfl, hd⟩

theorem collapse_of_apart {t : Text} (h : t.IsChain fun c d => ¬(c = ' ' ∧ d = ' ')) :
    collapse t = t := by
  induction t with
  | nil => rfl
  | cons c t ih =>
    obtain ⟨hhead, htail⟩ := List.isChain_cons.mp h
    have hkept : ¬(c = ' ' ∧ t.head? = some ' ') := by
      rintro ⟨hc, hd⟩
      exact hhead ' ' hd ⟨hc, rfl⟩
    rw [collapse, if_neg hkept, ih htail]

theorem flat_flatten (t : Text) : Flat (flatten t) :=
  ⟨newline_not_mem_flatten t, collapse_apart (unbroken t)⟩

theorem flat_trimFlatten (t : Text) : Flat (trimFlatten t) :=
  (flat_flatten t).stretch (Text.infix_strip Text.isBlank (flatten t))

theorem Flat.flatten_eq {t : Text} (h : Flat t) : flatten t = t := by
  rw [flatten, unbroken_of_not_mem h.unbroken, collapse_of_apart h.apart]

def isGap (c : Char) : Bool := c == ' ' || c == '\n'

theorem head?_unbroken (t : Text) : (unbroken t).head? = some ' ' ↔ t.head?.any isGap = true := by
  cases t with
  | nil => simp [unbroken]
  | cons c t =>
    by_cases hc : c = '\n'
    · simp [unbroken, isGap, hc]
    · simp [unbroken, isGap, hc]

theorem flatten_eq (t : Text) : flatten t = replaceRuns isGap (fun _ => ' ') t := by
  induction t with
  | nil => rfl
  | cons c t ih =>
    by_cases hc : isGap c = true
    · have hspace : unbroken (c :: t) = ' ' :: unbroken t := by
        rcases Bool.or_eq_true_iff.mp hc with hc | hc
        · rw [eq_of_beq hc]
          rfl
        · rw [eq_of_beq hc]
          rfl
      rw [replaceRuns_const_cons hc, ← ih, flatten, hspace, collapse]
      simp only [true_and, head?_unbroken]
      rfl
    · have hother : ¬(c = ' ' ∨ c = '\n') := by simpa [isGap] using hc
      obtain ⟨hspace, hline⟩ := not_or.mp hother
      have hkept : unbroken (c :: t) = c :: unbroken t := by simp [unbroken, hline]
      rw [replaceRuns_cons (Bool.eq_false_iff.mpr hc), ← ih, flatten, hkept,
        collapse_cons_of_ne hspace]
      rfl

theorem trimFlatten_trimFlatten (t : Text) : trimFlatten (trimFlatten t) = trimFlatten t :=
  calc trimFlatten (trimFlatten t)
    _ = Text.trim (flatten (trimFlatten t)) := rfl
    _ = Text.trim (trimFlatten t) := by rw [(flat_trimFlatten t).flatten_eq]
    _ = trimFlatten t := Text.trim_trim (flatten t)

/-- Flattening replaces each maximal run of spaces and line feeds by one space, whatever it is made
of and wherever a text is cut; done twice, it is as good as done once, and so is trimming with it.
-/
theorem flatten_is_normal_form (a b : Text) :
    (∃ parts, MaximalRuns isGap a parts ∧ flatten a = parts.map (Stretch.replaced fun _ => ' ')) ∧
      flatten (a ++ b) = flatten (flatten a ++ flatten b) ∧
      flatten (flatten a) = flatten a ∧ trimFlatten (trimFlatten a) = trimFlatten a := by
  obtain ⟨parts, hparts⟩ := exists_maximalRuns isGap a
  refine ⟨⟨parts, hparts, (flatten_eq a).trans hparts.replaceRuns_eq⟩, ?_, ?_, ?_⟩
  · exact flatten_append_congr (flatten_flatten a).symm (flatten_flatten b).symm
  · exact flatten_flatten a
  · exact trimFlatten_trimFlatten a

-- Runs of both kinds, and white space at the ends that only trimming takes away.
example : flatten "\u00a0\n a \n b\t\u2003".toList = "\u00a0 a b\t\u2003".toList ∧
    trimFlatten "\u00a0\n a \n b\t\u2003".toList = "a b".toList := by
  decide

end CanonMark.Layout
