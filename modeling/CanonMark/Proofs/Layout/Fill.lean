import CanonMark.Layout.Flow
import Mathlib.Data.List.Basic

/-! # Filled lines

A flow decides where lines end while it writes. The same decisions cut the list of tokens into
groups, one a line, and what a fresh flow writes is these groups printed line by line.
-/
namespace CanonMark.Layout

/-- What a fresh flow writes for tokens, up to the end of its last line. -/
def fill (cols : Nat) (margin : Margin) (ts : List Text) : Text :=
  let (filled, w) := (Flow.start cols margin).writeAll ts
  filled ++ w.terminate.1

def joinFirst (token : Text) : List (List Text) → List (List Text)
  | [] => [[token]]
  | g :: gs => (token :: g) :: gs

def openWidth (margin token : Text) : Nat := Text.width margin + Text.width (escapeLineStart token)

/-- Cuts tokens into lines. The first group stands behind `count` columns of a line already begun;
a token that does not fit there opens a line behind the margin `later`. -/
def cutFrom (cols : Nat) (later : Text) (count : Nat) : List Text → List (List Text)
  | [] => [[]]
  | t :: ts =>
    if count + Text.width t + 1 > cols then
      [] :: joinFirst t (cutFrom cols later (openWidth later t) ts)
    else joinFirst t (cutFrom cols later (count + (Text.width t + 1)) ts)

def cut (cols : Nat) (margin : Margin) : List Text → List (List Text)
  | [] => []
  | t :: ts =>
    joinFirst t (cutFrom cols margin.later (openWidth margin.first t) ts)

def spacedTail (ts : List Text) : Text := ts.flatMap (' ' :: ·)

def lineBody : List Text → Text
  | [] => []
  | t :: ts => escapeLineStart t ++ spacedTail ts

def unlines (ls : List Text) : Text := ls.flatMap (· ++ ['\n'])

def groupLines (margin : Margin) : List (List Text) → List Text
  | [] => []
  | g :: gs => (margin.first ++ lineBody g) :: gs.map (margin.later ++ lineBody ·)

def fillLines (cols : Nat) (margin : Margin) (ts : List Text) : List Text :=
  (Text.splitOn '\n' (fill cols margin ts)).dropLast

@[simp] theorem spacedTail_nil : spacedTail [] = [] := rfl

@[simp] theorem spacedTail_cons (t : Text) (ts : List Text) :
    spacedTail (t :: ts) = ' ' :: t ++ spacedTail ts := rfl

@[simp] theorem unlines_nil : unlines [] = [] := rfl

@[simp] theorem unlines_cons (l : Text) (ls : List Text) :
    unlines (l :: ls) = l ++ '\n' :: unlines ls := by
  simp [unlines]

@[simp] theorem unlines_append (ls ms : List Text) :
    unlines (ls ++ ms) = unlines ls ++ unlines ms := by
  simp [unlines]

/-- A marker is a number of one to nine digits with its mark. -/
theorem isOrderedMarker_iff {t : Text} : isOrderedMarker t = true ↔
    ∃ digits d, t = digits ++ [d] ∧ (d = '.' ∨ d = ')') ∧ (∀ c ∈ digits, Text.isDigit c = true) ∧
      1 ≤ digits.length ∧ digits.length ≤ 9 := by
  constructor
  · intro h
    unfold isOrderedMarker at h
    split at h
    · next d hd =>
      simp only [Bool.and_eq_true, Bool.or_eq_true, beq_iff_eq, List.all_eq_true,
        decide_eq_true_eq] at h
      exact ⟨t.dropLast, d, (List.dropLast_append_getLast? d hd).symm, h.1.1.1, h.1.1.2, h.1.2,
        h.2⟩
    · cases h
  · rintro ⟨digits, d, rfl, hd, hdigits, hlo, hhi⟩
    simp [isOrderedMarker, hd, List.all_eq_true.mpr hdigits, hlo, hhi]

theorem orderedMarker_parts {t : Text} (h : isOrderedMarker t = true) :
    ∃ digits d, t = digits ++ [d] ∧ (d = '.' ∨ d = ')') ∧ (∀ c ∈ digits, Text.isDigit c = true) ∧
      digits ≠ [] := by
  obtain ⟨digits, d, ht, hd, hdigits, hlo, -⟩ := isOrderedMarker_iff.mp h
  exact ⟨digits, d, ht, hd, hdigits, List.length_pos_iff.mp hlo⟩

@[simp] theorem joinFirst_flatten (t : Text) (gs : List (List Text)) :
    (joinFirst t gs).flatten = t :: gs.flatten := by
  cases gs <;> simp [joinFirst]

theorem cutFrom_flatten (cols : Nat) (later : Text) (count : Nat) (ts : List Text) :
    (cutFrom cols later count ts).flatten = ts := by
  induction ts generalizing count with
  | nil => rfl
  | cons t ts ih =>
    rw [cutFrom]
    split <;> simp [ih]

theorem cut_flatten (cols : Nat) (margin : Margin) (ts : List Text) :
    (cut cols margin ts).flatten = ts := by
  cases ts with
  | nil => rfl
  | cons t ts => simp [cut, cutFrom_flatten]

theorem cutFrom_eq_cons (cols : Nat) (later : Text) (count : Nat) (ts : List Text) :
    ∃ g gs, cutFrom cols later count ts = g :: gs := by
  cases ts with
  | nil => exact ⟨[], [], rfl⟩
  | cons t ts =>
    rw [cutFrom]
    split
    · exact ⟨_, _, rfl⟩
    · cases cutFrom cols later (count + (Text.width t + 1)) ts <;> exact ⟨_, _, rfl⟩

theorem cutFrom_tail_nonempty (cols : Nat) (later : Text) (count : Nat) (ts : List Text) :
    ∀ g ∈ (cutFrom cols later count ts).tail, g ≠ [] := by
  induction ts generalizing count with
  | nil => simp [cutFrom]
  | cons t ts ih =>
    rw [cutFrom]
    split
    · have h := ih (openWidth later t)
      obtain ⟨g, gs, hc⟩ := cutFrom_eq_cons cols later (openWidth later t) ts
      rw [hc] at h ⊢
      simpa [joinFirst] using h
    · have h := ih (count + (Text.width t + 1))
      obtain ⟨g, gs, hc⟩ := cutFrom_eq_cons cols later (count + (Text.width t + 1)) ts
      rw [hc] at h ⊢
      simpa [joinFirst] using h

theorem cut_nonempty (cols : Nat) (margin : Margin) (ts : List Text) :
    ∀ g ∈ cut cols margin ts, g ≠ [] := by
  cases ts with
  | nil => simp [cut]
  | cons t ts =>
    have h := cutFrom_tail_nonempty cols margin.later (openWidth margin.first t) ts
    obtain ⟨g, gs, hc⟩ := cutFrom_eq_cons cols margin.later (openWidth margin.first t) ts
    rw [cut, hc]
    rw [hc] at h
    simpa [joinFirst] using h

theorem cut_ne_nil {cols : Nat} {margin : Margin} {ts : List Text} (h : ts ≠ []) :
    cut cols margin ts ≠ [] := by
  intro hc
  have hf := cut_flatten cols margin ts
  rw [hc] at hf
  exact h hf.symm

namespace Flow

def within (cols : Nat) (margin : Margin) (count : Nat) : Flow :=
  ⟨cols, margin, count, false, false⟩

/-- What is left to write when the tokens of a line already begun are given. -/
def rest (w : Flow) (ts : List Text) : Text :=
  let (filled, w) := w.writeAll ts
  filled ++ w.terminate.1

theorem rest_cons (w : Flow) {t : Text} (ts : List Text) (ht : t ≠ []) :
    w.rest (t :: ts) = (w.write t).1 ++ (w.write t).2.rest ts := by
  have h : t.isEmpty = false := by simpa using ht
  simp [rest, writeAll, h]

theorem write_opening {w : Flow} (t : Text) (h : w.firstLine || w.atLineStart) :
    w.write t = w.openWith t := by
  simp [write, h]

def afterLine (later : Text) : List (List Text) → Text
  | [] => []
  | g :: gs => spacedTail g ++ '\n' :: unlines (gs.map (later ++ lineBody ·))

theorem openWith_rest {w : Flow} {t : Text} {ts : List Text} (hcount : w.count = 0)
    (hfirst : w.firstLine = false)
    (h : (within w.cols w.margin (openWidth w.margin.later t)).settle.1 ++
        (within w.cols w.margin (openWidth w.margin.later t)).settle.2.rest ts =
      afterLine w.margin.later (cutFrom w.cols w.margin.later (openWidth w.margin.later t) ts)) :
    (w.openWith t).1 ++ (w.openWith t).2.rest ts =
      unlines ((joinFirst t (cutFrom w.cols w.margin.later (openWidth w.margin.later t) ts)).map
        (w.margin.later ++ lineBody ·)) := by
  obtain ⟨cols, margin, count, first, start⟩ := w
  subst hcount hfirst
  obtain ⟨g, gs, hc⟩ := cutFrom_eq_cons cols margin.later (openWidth margin.later t) ts
  simp only [within, openWidth] at h hc
  simp [openWith, opening, h, hc, afterLine, joinFirst, lineBody, openWidth]

/-- A line too long already is broken at once, and one that is not is broken before the next token
that does not fit: the text is the same. -/
theorem settle_rest (cols : Nat) (margin : Margin) (count : Nat) (ts : List Text)
    (hts : ∀ t ∈ ts, t ≠ []) :
    (within cols margin count).settle.1 ++ (within cols margin count).settle.2.rest ts =
      afterLine margin.later (cutFrom cols margin.later count ts) := by
  induction ts generalizing count with
  | nil =>
    by_cases h : count > cols <;>
      simp [settle, within, h, rest, writeAll, terminate, newline, breakLine, cutFrom, afterLine]
  | cons t ts ih =>
    have hne : t ≠ [] := hts t (by simp)
    have hts' : ∀ u ∈ ts, u ≠ [] := fun u hu => hts u (by simp [hu])
    have hbroken := openWith_rest (w := ⟨cols, margin, 0, false, true⟩) rfl rfl
      (ih (openWidth margin.later t) hts')
    by_cases hover : count > cols
    · have hs : (within cols margin count).settle = (['\n'], ⟨cols, margin, 0, false, true⟩) := by
        simp [settle, within, hover, breakLine]
      have hfit : count + Text.width t + 1 > cols := by omega
      rw [hs, rest_cons _ _ hne, write_opening _ (by rfl), hbroken, cutFrom, if_pos hfit]
      rfl
    · have hs : (within cols margin count).settle = ([], within cols margin count) := by
        simp [settle, within, hover]
      rw [hs, rest_cons _ _ hne, cutFrom]
      by_cases hfit : count + Text.width t + 1 > cols
      · have hw : (within cols margin count).write t =
            ('\n' :: (openWith ⟨cols, margin, 0, false, true⟩ t).1,
              (openWith ⟨cols, margin, 0, false, true⟩ t).2) := by
          simp [write, within, hfit, breakLine]
        rw [hw, if_pos hfit]
        simp only [List.nil_append, List.cons_append, hbroken]
        rfl
      · have hw : (within cols margin count).write t =
            (' ' :: t ++ (within cols margin (count + (Text.width t + 1))).settle.1,
              (within cols margin (count + (Text.width t + 1))).settle.2) := by
          simp [write, within, hfit, append]
        obtain ⟨g, gs, hc⟩ := cutFrom_eq_cons cols margin.later (count + (Text.width t + 1)) ts
        have h := ih (count + (Text.width t + 1)) hts'
        rw [hw, if_neg hfit, hc]
        rw [hc] at h
        simp [h, afterLine, joinFirst]

end Flow

/-- A fresh flow prints the lines of the cut. -/
theorem fill_eq_unlines (cols : Nat) (margin : Margin) (ts : List Text)
    (hts : ∀ t ∈ ts, t ≠ []) :
    fill cols margin ts = unlines (groupLines margin (cut cols margin ts)) := by
  cases ts with
  | nil => rfl
  | cons t ts =>
    have hne : t ≠ [] := hts t (by simp)
    have h := Flow.settle_rest cols margin (openWidth margin.first t) ts
      (fun u hu => hts u (by simp [hu]))
    obtain ⟨g, gs, hc⟩ := cutFrom_eq_cons cols margin.later (openWidth margin.first t) ts
    change (Flow.start cols margin).rest (t :: ts) = _
    rw [Flow.rest_cons _ _ hne, Flow.write_opening _ (by rfl), cut, hc]
    rw [hc] at h
    simp only [Flow.within, openWidth] at h
    simp [Flow.start, Flow.openWith, Flow.opening, h, Flow.afterLine, joinFirst, groupLines,
      lineBody]

theorem splitOn_ne_nil (sep : Char) (t : Text) : Text.splitOn sep t ≠ [] := by
  cases t with
  | nil => simp [Text.splitOn]
  | cons c t =>
    rw [Text.splitOn]
    split
    · simp
    · split <;> simp

theorem splitOn_append_sep (sep : Char) (s t : Text) :
    Text.splitOn sep (s ++ sep :: t) = Text.splitOn sep s ++ Text.splitOn sep t := by
  induction s with
  | nil => simp [Text.splitOn]
  | cons c s ih =>
    simp only [List.cons_append, Text.splitOn, ih]
    split
    · rfl
    · cases hs : Text.splitOn sep s with
      | nil => exact absurd hs (splitOn_ne_nil sep s)
      | cons p ps => rfl

theorem splitOn_of_not_mem {sep : Char} {t : Text} (h : sep ∉ t) : Text.splitOn sep t = [t] := by
  induction t with
  | nil => rfl
  | cons c t ih =>
    have hc : c ≠ sep := fun he => h (by simp [he])
    have ht : sep ∉ t := fun hm => h (by simp [hm])
    simp [Text.splitOn, hc, ih ht]

theorem unlines_splitOn (t : Text) : unlines (Text.splitOn '\n' t) = t ++ ['\n'] := by
  induction t with
  | nil => rfl
  | cons c t ih =>
    rw [Text.splitOn]
    split
    · next h => simp [ih, h]
    · cases hs : Text.splitOn '\n' t with
      | nil => exact absurd hs (splitOn_ne_nil _ t)
      | cons p ps =>
        rw [hs] at ih
        simpa using ih

theorem unlines_lines (ls : List Text) :
    unlines (Text.splitOn '\n' (unlines ls)).dropLast = unlines ls := by
  induction ls with
  | nil => rfl
  | cons l ls ih =>
    rw [unlines_cons, splitOn_append_sep, List.dropLast_append_of_ne_nil (splitOn_ne_nil _ _),
      unlines_append, ih, unlines_splitOn]
    simp

theorem lines_unlines {ls : List Text} (h : ∀ l ∈ ls, '\n' ∉ l) :
    (Text.splitOn '\n' (unlines ls)).dropLast = ls := by
  induction ls with
  | nil => rfl
  | cons l ls ih =>
    rw [unlines_cons, splitOn_append_sep, List.dropLast_append_of_ne_nil (splitOn_ne_nil _ _),
      ih (fun m hm => h m (by simp [hm])), splitOn_of_not_mem (h l (by simp))]
    rfl

theorem unlines_fillLines (cols : Nat) (margin : Margin) (ts : List Text)
    (hts : ∀ t ∈ ts, t ≠ []) : unlines (fillLines cols margin ts) = fill cols margin ts := by
  rw [fillLines, fill_eq_unlines _ _ _ hts, unlines_lines]

end CanonMark.Layout
