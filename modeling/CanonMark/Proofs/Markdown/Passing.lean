import CanonMark.Markdown.Block
import CanonMark.Proofs.Layout.Fill

/-! # What containers take of a written line

A laid out line is a margin of spaces or quote marks with text behind it. Here is what is left of
such a line behind the containers that it passes, and where it stops if a container does not go on.
-/
namespace CanonMark.Markdown

def OneLine (t : Text) : Prop := '\n' ∉ t ∧ '\r' ∉ t

instance (t : Text) : Decidable (OneLine t) := inferInstanceAs (Decidable (_ ∧ _))

def fullLine (t : Text) : Line := ⟨t, ['\n']⟩

theorem linesFrom_of_oneLine {l : Text} (h : OneLine l) (line t : Text) :
    linesFrom line (l ++ '\n' :: t) = fullLine (line.reverse ++ l) :: linesFrom [] t := by
  induction l generalizing line with
  | nil => simp [linesFrom, fullLine]
  | cons c l ih =>
    have hn : c ≠ '\n' := fun e => h.1 (by simp [e])
    have hr : c ≠ '\r' := fun e => h.2 (by simp [e])
    have hl : OneLine l := ⟨fun m => h.1 (by simp [m]), fun m => h.2 (by simp [m])⟩
    have hstep : linesFrom line (c :: (l ++ '\n' :: t)) = linesFrom (c :: line) (l ++ '\n' :: t) := by
      rw [linesFrom]
      · exact hn
      · exact fun _ e => absurd e hr
      · exact hr
    rw [List.cons_append, hstep, ih hl]
    simp

/-- The lines that were written are the lines that are read. -/
theorem lines_unlines {ls : List Text} (h : ∀ l ∈ ls, OneLine l) :
    lines (Layout.unlines ls) = ls.map fullLine := by
  induction ls with
  | nil => rfl
  | cons l ls ih =>
    have hl : OneLine l := h l (by simp)
    have hls := ih (fun m hm => h m (by simp [hm]))
    rw [Layout.unlines_cons, lines, linesFrom_of_oneLine hl]
    simpa [lines] using hls

def Flush (t : Text) : Prop := ∀ c ∈ t.head?, Text.isSpaceOrTab c = false

theorem flush_nil : Flush [] := by simp [Flush]

theorem flush_cons {c : Char} (t : Text) (h : Text.isSpaceOrTab c = false) : Flush (c :: t) := by
  simpa [Flush] using h

namespace Cursor

/-- The place behind `column` columns, before `k` spaces and a text. -/
def indented (k : Nat) (t : Text) (column : Nat) : Cursor := ⟨List.replicate k ' ' ++ t, column, 0⟩

theorem skipFrom_flush {t : Text} (h : Flush t) (n column : Nat) :
    skipFrom n column t = (0, ⟨t, column, 0⟩) := by
  cases t with
  | nil => rfl
  | cons c t =>
    have hc : Text.isSpaceOrTab c = false := h c rfl
    simp only [Text.isSpaceOrTab, Bool.or_eq_false_iff, beq_eq_false_iff_ne] at hc
    simp [skipFrom, hc.1, hc.2]

theorem skipFrom_spaces {t : Text} (h : Flush t) (n k column : Nat) :
    skipFrom n column (List.replicate k ' ' ++ t) =
      (min n k, indented (k - n) t (column + min n k)) := by
  induction k generalizing n column with
  | zero => simp [skipFrom_flush h, indented]
  | succ k ih =>
    cases n with
    | zero => simp [List.replicate_succ, skipFrom, indented]
    | succ n =>
      have hmin : min (n + 1) (k + 1) = min n k + 1 := by omega
      have hcol : column + 1 + min n k = column + (min n k + 1) := by omega
      simp [List.replicate_succ, skipFrom, ih, hmin, hcol]

theorem skip_indented {t : Text} (h : Flush t) (n k column : Nat) :
    (indented k t column).skip n = (min n k, indented (k - n) t (column + min n k)) := by
  by_cases hn : n = 0
  · subst hn
    simp [skip, indented]
  · have : ¬ n ≤ (indented k t column).spare := by simpa [indented] using hn
    rw [skip, if_neg this]
    simp [indented, skipFrom_spaces h]

end Cursor

open Cursor (indented)

theorem item_pass {t : Text} (h : Flush t) {i k : Nat} (hi : i ≤ k) (column : Nat) :
    (Container.item i).pass? (indented k t column) = some (indented (k - i) t (column + i)) := by
  simp [Container.pass?, Cursor.skip_indented h, hi]

theorem item_stops {t : Text} (h : Flush t) (ht : t ≠ []) {i k : Nat} (hi : k < i) (column : Nat) :
    (Container.item i).pass? (indented k t column) = none := by
  have hmin : min i k = k := by omega
  have hne : ¬ k = i := by omega
  have hsub : k - i = 0 := by omega
  simp only [Container.pass?, Cursor.skip_indented h, hmin, hsub]
  simp [hne, Cursor.indented, Cursor.atEnd, ht]

theorem item_pass_blank (i column : Nat) :
    (Container.item i).pass? (indented 0 [] column) = some (indented 0 [] column) := by
  simp only [Container.pass?, Cursor.skip_indented flush_nil]
  simp [Cursor.indented, Cursor.atEnd]

theorem quoteMark_indented (t : Text) (column : Nat) :
    (indented 0 ('>' :: ' ' :: t) column).quoteMark? = some (indented 0 t (column + 2)) := by
  have hskip : Cursor.skip ⟨' ' :: t, column + 1, 0⟩ 1 = (1, ⟨t, column + 1 + 1, 0⟩) := by
    cases t <;> simp [Cursor.skip, Cursor.skipFrom]
  simp [Cursor.indented, Cursor.quoteMark?, Cursor.advance, hskip]

theorem quote_pass (t : Text) (column : Nat) :
    Container.quote.pass? (indented 0 ('>' :: ' ' :: t) column) =
      some (indented 0 t (column + 2)) := by
  have hf : Flush ('>' :: ' ' :: t) := flush_cons _ rfl
  simp only [Container.pass?, Cursor.skip_indented hf, Nat.zero_sub, Nat.min_zero, Nat.add_zero,
    quoteMark_indented]

theorem quote_stops {t : Text} (h : Flush t) (hq : t.head? ≠ some '>') (column : Nat) :
    Container.quote.pass? (indented 0 t column) = none := by
  simp only [Container.pass?, Cursor.skip_indented h]
  simp [Cursor.indented, Cursor.quoteMark?, hq]

theorem pass_append {cur next : Cursor} {cs : List Container} (h : pass cur cs = ([], next))
    (ds : List Container) : pass cur (cs ++ ds) = pass next ds := by
  induction cs generalizing cur with
  | nil =>
    simp only [pass, Prod.mk.injEq, true_and] at h
    rw [h, List.nil_append]
  | cons c cs ih =>
    rw [List.cons_append, pass]
    rw [pass] at h
    cases hc : c.pass? cur with
    | none => simp [hc] at h
    | some mid =>
      rw [hc] at h
      exact ih h

theorem pass_cons_some {cur next : Cursor} {c : Container} (h : c.pass? cur = some next)
    (cs : List Container) : pass cur (c :: cs) = pass next cs := by
  rw [pass, h]

theorem pass_cons_none {cur : Cursor} {c : Container} (h : c.pass? cur = none)
    (cs : List Container) : pass cur (c :: cs) = (c :: cs, cur) := by
  rw [pass, h]

theorem pass_list (cur : Cursor) (mark : ListMark) (loose : Bool) (cs : List Container) :
    pass cur (.list mark loose :: cs) = pass cur cs := rfl

/-- Lists and items within them: a line with `margin` or more spaces at its front passes them all,
and `left` of the `margin` spaces are left. -/
structure Passes (spine : List Container) (margin left : Nat) : Prop where
  le : left ≤ margin
  pass_eq : ∀ k t, Flush t →
    pass (indented (margin + k) t 0) spine = ([], indented (left + k) t (margin - left))

theorem passes_nil : Passes [] 0 0 := ⟨by omega, fun k t _ => by simp [pass]⟩

/-- An item whose marker stands behind `left` spaces takes these and the length of its marker. -/
theorem Passes.item {spine : List Container} {margin left : Nat} (h : Passes spine margin left)
    (mark : ListMark) (loose : Bool) (length extra : Nat) :
    Passes (spine ++ [.list mark loose, .item (left + length)]) (margin + (length + extra))
      extra := by
  refine ⟨by omega, fun k t ht => ?_⟩
  have hin := h.pass_eq (length + extra + k) t ht
  have hmargin : margin + (length + extra) + k = margin + (length + extra + k) := by omega
  have hle : left + length ≤ left + (length + extra + k) := by omega
  have hleft : left + (length + extra + k) - (left + length) = extra + k := by omega
  have hcol : margin - left + (left + length) = margin + (length + extra) - extra := by
    have := h.le
    omega
  rw [hmargin, pass_append hin, pass_list, pass_cons_some (item_pass ht hle _), hleft, hcol]
  rfl

/-- A line with nothing but the margin before its text does not belong to an item that stands
there. -/
theorem Passes.stops {spine : List Container} {margin left : Nat} (h : Passes spine margin left)
    (mark : ListMark) (loose : Bool) {i : Nat} (hi : left < i) (more : List Container) {t : Text}
    (ht : Flush t) (hne : t ≠ []) :
    pass (indented margin t 0) (spine ++ .list mark loose :: .item i :: more) =
      (.item i :: more, indented left t (margin - left)) := by
  have hin := h.pass_eq 0 t ht
  rw [Nat.add_zero, Nat.add_zero] at hin
  rw [pass_append hin, pass_list, pass_cons_none (item_stops ht hne hi _)]

def quoteMarks (depth : Nat) : Text := (List.replicate depth "> ".toList).flatten

theorem quoteMarks_zero : quoteMarks 0 = [] := rfl

theorem quoteMarks_succ (depth : Nat) : quoteMarks (depth + 1) = '>' :: ' ' :: quoteMarks depth := by
  simp [quoteMarks, List.replicate_succ]

theorem pass_quotes (depth more : Nat) (t : Text) (column : Nat) :
    pass (indented 0 (quoteMarks (depth + more) ++ t) column) (List.replicate depth .quote) =
      ([], indented 0 (quoteMarks more ++ t) (column + 2 * depth)) := by
  induction depth generalizing column with
  | zero => simp [pass]
  | succ depth ih =>
    have hshape : quoteMarks (depth + 1 + more) ++ t =
        '>' :: ' ' :: (quoteMarks (depth + more) ++ t) := by
      rw [Nat.add_right_comm, quoteMarks_succ]
      rfl
    have hcol : column + 2 + 2 * depth = column + 2 * (depth + 1) := by omega
    rw [List.replicate_succ, hshape, pass_cons_some (quote_pass _ _), ih, hcol]

theorem pass_fewer_quotes (depth : Nat) (inner : Nat) {t : Text} (ht : Flush t)
    (hq : t.head? ≠ some '>') :
    pass (indented 0 (quoteMarks depth ++ t) 0) (List.replicate (depth + inner) .quote) =
      (List.replicate inner .quote, indented 0 t (2 * depth)) := by
  have hin := pass_quotes depth 0 t 0
  rw [Nat.add_zero, quoteMarks_zero, List.nil_append, Nat.zero_add] at hin
  rw [← List.replicate_append_replicate, pass_append hin]
  cases inner with
  | zero => rfl
  | succ inner => rw [List.replicate_succ, pass_cons_none (quote_stops ht hq _)]

end CanonMark.Markdown
