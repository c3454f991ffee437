import CanonMark.Proofs.Layout.Fill

/-! # Greedy lines

A flow ends a line only where the next token would not fit behind it. There is one way to cut tokens
into lines like this, and no other cut into lines that fit needs fewer of them. A backslash at the
start of a line is paid for by the space that stands there if the line does not end.
-/
namespace CanonMark

namespace Text

theorem leadOf_ne_joined (c : Char) : leadOf c ≠ .joined := by
  unfold leadOf
  split
  · simp
  · split
    · simp
    · split <;> simp

theorem widthStep_of_ascii {lead : Lead} {c : Char} (hlead : lead ≠ .joined)
    (hc : c.toNat < 128) (hfeed : c ≠ '\n') : widthStep lead c = (1, leadOf c) := by
  have hwidth : charWidth c = 1 := if_pos hc
  have hselector : c ≠ selector := by
    rintro rfl
    exact absurd hc (by decide)
  have hjoiner : c ≠ joiner := by
    rintro rfl
    exact absurd hc (by decide)
  have htone : isTone c = false := by
    simp only [isTone, Bool.and_eq_false_iff, decide_eq_false_iff_not]
    omega
  cases lead with
  | plain => simp [widthStep, hwidth]
  | carriage => simp [widthStep, hwidth, hfeed]
  | emoji columns picture tone => simp [widthStep, hwidth, hselector, hjoiner, htone]
  | joined => exact absurd rfl hlead

theorem widthFrom_of_ascii {t : Text} (ht : ∀ c ∈ t, c.toNat < 128 ∧ c ≠ '\n') {lead : Lead}
    (hlead : lead ≠ .joined) : widthFrom lead t = t.length := by
  induction t generalizing lead with
  | nil => rfl
  | cons c t ih =>
    obtain ⟨hc, hfeed⟩ := ht c List.mem_cons_self
    have hrest := ih (fun d hd => ht d (List.mem_cons_of_mem _ hd)) (leadOf_ne_joined c)
    rw [widthFrom, widthStep_of_ascii hlead hc hfeed, List.length_cons]
    simp only [hrest]
    omega

theorem width_backslash_cons (t : Text) : width ('\\' :: t) = width t + 1 := by
  have hstep : widthStep .plain '\\' = (1, .plain) := by decide
  rw [width, widthFrom, hstep]
  exact Nat.add_comm 1 _

end Text

namespace Layout

theorem ascii_of_isDigit {c : Char} (h : Text.isDigit c = true) : c.toNat < 128 ∧ c ≠ '\n' := by
  constructor
  · have hle : c ≤ '9' := of_decide_eq_true (Bool.and_eq_true_iff.mp h).2
    have hnine : c.toNat ≤ '9'.toNat := hle
    have hvalue : '9'.toNat = 57 := rfl
    omega
  · rintro rfl
    exact absurd h (by decide)

theorem orderedMarker_ascii {digits : Text} {d : Char} (hd : d = '.' ∨ d = ')')
    (hdigits : ∀ c ∈ digits, Text.isDigit c = true) :
    ∀ c ∈ digits ++ ['\\', d], c.toNat < 128 ∧ c ≠ '\n' := by
  intro c hc
  rcases List.mem_append.mp hc with hc | hc
  · exact ascii_of_isDigit (hdigits c hc)
  · rcases hd with rfl | rfl <;> rcases List.mem_pair.mp hc with rfl | rfl <;> decide

theorem width_escapeLineStart (t : Text) : Text.width (escapeLineStart t) =
    Text.width t + if escapeLineStart t = t then 0 else 1 := by
  by_cases hordered : isOrderedMarker t = true
  · obtain ⟨digits, d, rfl, hd, hdigits, -⟩ := orderedMarker_parts hordered
    have hescape : escapeLineStart (digits ++ [d]) = digits ++ ['\\', d] := by
      simp [escapeLineStart, hordered]
    have hne : digits ++ ['\\', d] ≠ digits ++ [d] := by simp
    have hwritten := orderedMarker_ascii hd hdigits
    have hplain : ∀ c ∈ digits ++ [d], c.toNat < 128 ∧ c ≠ '\n' := by
      intro c hc
      apply hwritten c
      rw [List.mem_append] at hc ⊢
      exact hc.imp_right (List.mem_cons_of_mem _)
    rw [hescape, if_neg hne, Text.width, Text.width,
      Text.widthFrom_of_ascii hwritten (by simp), Text.widthFrom_of_ascii hplain (by simp)]
    simp
  · by_cases hleading : isLeadingMarker t = true
    · have hescape : escapeLineStart t = '\\' :: t := by
        simp [escapeLineStart, hordered, hleading]
      rw [hescape, if_neg (List.cons_ne_self _ _), Text.width_backslash_cons]
    · have hescape : escapeLineStart t = t := by
        simp [escapeLineStart, hordered, hleading]
      rw [hescape, if_pos rfl, Nat.add_zero]

theorem width_escapeLineStart_le (t : Text) :
    Text.width (escapeLineStart t) ≤ Text.width t + 1 := by
  rw [width_escapeLineStart]
  split <;> omega

def tailWidth : List Text → Nat
  | [] => 0
  | t :: ts => Text.width t + 1 + tailWidth ts

structure Line where
  margin : Text
  tokens : List Text
  deriving DecidableEq, Repr

/-- The columns of the margin, of the first token as it is written there, and of the others with
the spaces that join them. -/
def Line.width (l : Line) : Nat :=
  match l.tokens with
  | [] => Text.width l.margin
  | t :: ts => openWidth l.margin t + tailWidth ts

def Margin.rest (m : Margin) : Margin := ⟨m.later, m.later⟩

def Margin.lines (m : Margin) : List (List Text) → List Line
  | [] => []
  | g :: gs => ⟨m.first, g⟩ :: gs.map (Line.mk m.later)

/-- A way to cut tokens into lines: nothing is lost, no line is empty, and one with more than one
token fits. -/
structure Division (cols : Nat) (margin : Margin) (ts : List Text) (gs : List (List Text)) :
    Prop where
  whole : gs.flatten = ts
  nonempty : ∀ g ∈ gs, g ≠ []
  fits : ∀ l ∈ margin.lines gs, 1 < l.tokens.length → l.width ≤ cols

/-- A division where the first token of each further line would not have fitted before. -/
structure Greedy (cols : Nat) (margin : Margin) (ts : List Text) (gs : List (List Text)) : Prop
    extends Division cols margin ts gs where
  full : (margin.lines gs).IsChain fun l next =>
    cols < l.width + 1 + Text.width (next.tokens.headD [])

instance (cols : Nat) (margin : Margin) (ts : List Text) (gs : List (List Text)) :
    Decidable (Division cols margin ts gs) :=
  decidable_of_iff (gs.flatten = ts ∧ (∀ g ∈ gs, g ≠ []) ∧
      ∀ l ∈ margin.lines gs, 1 < l.tokens.length → l.width ≤ cols)
    ⟨fun ⟨h₁, h₂, h₃⟩ => ⟨h₁, h₂, h₃⟩, fun ⟨h₁, h₂, h₃⟩ => ⟨h₁, h₂, h₃⟩⟩

instance (cols : Nat) (margin : Margin) (ts : List Text) (gs : List (List Text)) :
    Decidable (Greedy cols margin ts gs) :=
  decidable_of_iff (Division cols margin ts gs ∧ (margin.lines gs).IsChain fun l next =>
      cols < l.width + 1 + Text.width (next.tokens.headD []))
    ⟨fun ⟨h₁, h₂⟩ => ⟨h₁, h₂⟩, fun ⟨h₁, h₂⟩ => ⟨h₁, h₂⟩⟩

@[simp] theorem tailWidth_nil : tailWidth [] = 0 := rfl

@[simp] theorem tailWidth_cons (t : Text) (ts : List Text) :
    tailWidth (t :: ts) = Text.width t + 1 + tailWidth ts := rfl

@[simp] theorem tailWidth_append (ts us : List Text) :
    tailWidth (ts ++ us) = tailWidth ts + tailWidth us := by
  induction ts with
  | nil => simp
  | cons t ts ih =>
    rw [List.cons_append, tailWidth_cons, tailWidth_cons, ih]
    omega

theorem lines_cons (m : Margin) (g : List Text) (gs : List (List Text)) :
    m.lines (g :: gs) = ⟨m.first, g⟩ :: m.rest.lines gs := by
  cases gs <;> rfl

theorem width_append {m : Text} {g : List Text} (hg : g ≠ []) (h : List Text) :
    (Line.mk m (g ++ h)).width = (Line.mk m g).width + tailWidth h := by
  obtain ⟨t, ts, rfl⟩ := List.exists_cons_of_ne_nil hg
  simp only [Line.width, List.cons_append, tailWidth_append]
  omega

/-- A line gets no wider without the tokens at its front: where it starts later, the backslash that
its first token may need takes the column of a space. -/
theorem width_le_width_append (m : Text) (p : List Text) {g : List Text} (hg : g ≠ []) :
    (Line.mk m g).width ≤ (Line.mk m (p ++ g)).width := by
  cases p with
  | nil => exact Nat.le_refl _
  | cons x p =>
    obtain ⟨t, ts, rfl⟩ := List.exists_cons_of_ne_nil hg
    have hescape := width_escapeLineStart_le t
    simp only [Line.width, openWidth, List.cons_append, tailWidth_append, tailWidth_cons]
    omega

section Divisions

variable {cols : Nat} {margin : Margin} {ts g : List Text} {gs hs : List (List Text)}

theorem division_nil (h : Division cols margin ts []) : ts = [] := h.whole.symm

theorem division_cons : Division cols margin ts (g :: gs) ↔
    g ≠ [] ∧ (1 < g.length → (Line.mk margin.first g).width ≤ cols) ∧
      ∃ us, ts = g ++ us ∧ Division cols margin.rest us gs := by
  constructor
  · rintro ⟨hwhole, hnonempty, hfits⟩
    rw [lines_cons, List.forall_mem_cons] at hfits
    rw [List.forall_mem_cons] at hnonempty
    exact ⟨hnonempty.1, hfits.1, gs.flatten, hwhole.symm, rfl, hnonempty.2, hfits.2⟩
  · rintro ⟨hg, hfits, us, rfl, hrest⟩
    refine ⟨?_, List.forall_mem_cons.mpr ⟨hg, hrest.nonempty⟩, ?_⟩
    · rw [List.flatten_cons, hrest.whole]
    · rw [lines_cons]
      exact List.forall_mem_cons.mpr ⟨hfits, hrest.fits⟩

theorem division_head {t : Text} {us : List Text} (h : Division cols margin (t :: us) gs) :
    ∃ g rest, gs = (t :: g) :: rest := by
  cases gs with
  | nil => cases division_nil h
  | cons g rest =>
    obtain ⟨hg, -, vs, hsplit, -⟩ := division_cons.mp h
    obtain ⟨x, xs, rfl⟩ := List.exists_cons_of_ne_nil hg
    obtain ⟨rfl, -⟩ := List.cons.inj hsplit
    exact ⟨xs, rest, rfl⟩

theorem Greedy.rest (h : Greedy cols margin ts (g :: gs)) :
    ∃ us, ts = g ++ us ∧ Greedy cols margin.rest us gs := by
  obtain ⟨-, -, us, hsplit, hrest⟩ := division_cons.mp h.toDivision
  have hfull := h.full
  rw [lines_cons] at hfull
  exact ⟨us, hsplit, hrest, List.isChain_of_isChain_cons hfull⟩

theorem Greedy.overflows {t : Text} {us : List Text}
    (h : Greedy cols margin (g ++ t :: us) (g :: gs)) (more : List Text) :
    cols < (Line.mk margin.first (g ++ t :: more)).width := by
  obtain ⟨hg, -, vs, hsplit, hrest⟩ := division_cons.mp h.toDivision
  obtain rfl := List.append_cancel_left hsplit
  obtain ⟨x, rest, rfl⟩ := division_head hrest
  have hfull := h.full
  rw [lines_cons, lines_cons] at hfull
  have hnext := hfull.rel
  rw [width_append hg, tailWidth_cons]
  simp only [List.headD_cons] at hnext
  omega

/-- A greedy division that is not behind another one is not behind it a line later either. -/
theorem Greedy.ahead {p l : List Text} (h : Greedy cols margin ts (g :: gs))
    (hd : Division cols margin (p ++ ts) (l :: hs)) :
    ∃ back us, ts = g ++ us ∧ Greedy cols margin.rest us gs ∧
      Division cols margin.rest (back ++ us) hs := by
  obtain ⟨us, rfl, hrest⟩ := h.rest
  obtain ⟨-, hfits, vs, hsplit, hdrest⟩ := division_cons.mp hd
  rw [← List.append_assoc] at hsplit
  rcases List.append_eq_append_iff.mp hsplit with ⟨beyond, hl, hus⟩ | ⟨back, -, hvs⟩
  · cases beyond with
    | nil =>
      rw [List.nil_append] at hus
      exact ⟨[], us, rfl, hrest, hus ▸ hdrest⟩
    | cons t beyond =>
      -- the other line would hold all of the greedy line and the token that does not fit there
      exfalso
      subst hus
      have hg := h.nonempty g List.mem_cons_self
      have hwide := h.overflows beyond
      have hdrop := width_le_width_append margin.first p
        (List.append_ne_nil_of_left_ne_nil hg (t :: beyond))
      have hlength : 1 < l.length := by
        have hpos := List.length_pos_of_ne_nil hg
        simp only [hl, List.length_append, List.length_cons]
        omega
      have hfit := hfits hlength
      rw [hl, List.append_assoc] at hfit
      omega
  · exact ⟨back, us, rfl, hrest, hvs ▸ hdrest⟩

theorem Greedy.length_le {p : List Text} (h : Greedy cols margin ts gs)
    (hd : Division cols margin (p ++ ts) hs) : gs.length ≤ hs.length := by
  induction hs generalizing margin ts p gs with
  | nil =>
    obtain ⟨-, rfl⟩ := List.append_eq_nil_iff.mp (division_nil hd)
    cases gs with
    | nil => exact Nat.le_refl _
    | cons g gs =>
      obtain ⟨us, hsplit, -⟩ := h.rest
      exact absurd (List.append_eq_nil_iff.mp hsplit.symm).1 (h.nonempty g List.mem_cons_self)
  | cons l hs ih =>
    cases gs with
    | nil => exact Nat.zero_le _
    | cons g gs =>
      obtain ⟨back, us, -, hrest, hdrest⟩ := h.ahead hd
      exact Nat.succ_le_succ (ih hrest hdrest)

theorem Greedy.unique (h : Greedy cols margin ts gs) (h' : Greedy cols margin ts hs) :
    gs = hs := by
  induction gs generalizing margin ts hs with
  | nil =>
    have hlength : hs.length ≤ 0 := h'.length_le (p := []) h.toDivision
    exact (List.eq_nil_of_length_eq_zero (Nat.le_zero.mp hlength)).symm
  | cons g gs ih =>
    cases hs with
    | nil =>
      have hlength := h.length_le (p := []) h'.toDivision
      exact absurd hlength (Nat.not_succ_le_zero _)
    | cons l hs =>
      -- each of the two is ahead of the other, so their first lines end at the same token
      obtain ⟨back, us, hus, hrest, hdrest⟩ := h.ahead (p := []) h'.toDivision
      obtain ⟨forth, vs, hvs, hrest', hdrest'⟩ := h'.ahead (p := []) h.toDivision
      have hback : vs = back ++ us := hrest'.whole.symm.trans hdrest.whole
      have hforth : us = forth ++ vs := hrest.whole.symm.trans hdrest'.whole
      obtain rfl : us = vs := by
        have hlengths := congrArg List.length hforth
        rw [hback] at hlengths ⊢
        simp only [List.length_append] at hlengths
        rw [List.eq_nil_of_length_eq_zero (l := back) (by omega), List.nil_append]
      obtain rfl : g = l := List.append_cancel_right (hus.symm.trans hvs)
      rw [ih hrest hrest']

theorem Division.mono {wider : Nat} (hcols : cols ≤ wider) (h : Division cols margin ts gs) :
    Division wider margin ts gs :=
  ⟨h.whole, h.nonempty, fun l hl hlength => Nat.le_trans (h.fits l hl hlength) hcols⟩

end Divisions

theorem greedy_cons {cols : Nat} {m later t : Text} {g : List Text} {gs : List (List Text)}
    (hfits : g ≠ [] → openWidth m t + tailWidth g ≤ cols)
    (hfull : ∀ next ∈ gs.head?,
      cols < openWidth m t + tailWidth g + 1 + Text.width (next.headD []))
    (hrest : Greedy cols ⟨later, later⟩ gs.flatten gs) :
    Greedy cols ⟨m, later⟩ (t :: g ++ gs.flatten) ((t :: g) :: gs) := by
  constructor
  · apply division_cons.mpr
    refine ⟨List.cons_ne_nil t g, ?_, gs.flatten, rfl, hrest.toDivision⟩
    intro hlength
    apply hfits
    rintro rfl
    exact absurd hlength (by simp)
  · rw [lines_cons]
    cases gs with
    | nil => exact .singleton _
    | cons next gs =>
      rw [lines_cons]
      refine List.isChain_cons_cons.mpr ⟨hfull next rfl, ?_⟩
      have hchain := hrest.full
      rwa [lines_cons] at hchain

/-- The groups cut from a line already begun: the first one fits behind what stands there, the token
after it does not, and the others are greedy lines of their own. -/
theorem cutFrom_greedy (cols : Nat) (later : Text) (count : Nat) (ts : List Text) :
    ∃ g gs, cutFrom cols later count ts = g :: gs ∧ (g ≠ [] → count + tailWidth g ≤ cols) ∧
      (∀ next ∈ gs.head?, cols < count + tailWidth g + 1 + Text.width (next.headD [])) ∧
      Greedy cols ⟨later, later⟩ gs.flatten gs := by
  induction ts generalizing count with
  | nil =>
    refine ⟨[], [], rfl, by simp, by simp, ⟨rfl, by simp, ?_⟩, .nil⟩
    simp [Margin.lines]
  | cons t ts ih =>
    rw [cutFrom]
    by_cases hover : count + Text.width t + 1 > cols
    · obtain ⟨g, gs, hcut, hfits, hfull, hrest⟩ := ih (openWidth later t)
      rw [if_pos hover, hcut]
      refine ⟨[], (t :: g) :: gs, rfl, by simp, ?_, greedy_cons hfits hfull hrest⟩
      intro next hnext
      obtain rfl : t :: g = next := Option.some.inj hnext
      simp only [tailWidth_nil, List.headD_cons]
      omega
    · obtain ⟨g, gs, hcut, hfits, hfull, hrest⟩ := ih (count + (Text.width t + 1))
      rw [if_neg hover, hcut]
      refine ⟨t :: g, gs, rfl, ?_, ?_, hrest⟩
      · intro _
        rw [tailWidth_cons]
        by_cases hg : g = []
        · subst hg
          rw [tailWidth_nil]
          omega
        · have hbehind := hfits hg
          omega
      · intro next hnext
        have hbehind := hfull next hnext
        rw [tailWidth_cons]
        omega

theorem cut_greedy (cols : Nat) (margin : Margin) (ts : List Text) :
    Greedy cols margin ts (cut cols margin ts) := by
  cases ts with
  | nil => exact ⟨⟨rfl, by simp [cut], by simp [cut, Margin.lines]⟩, .nil⟩
  | cons t ts =>
    obtain ⟨g, gs, hcut, hfits, hfull, hrest⟩ :=
      cutFrom_greedy cols margin.later (openWidth margin.first t) ts
    have hwhole : ts = g ++ gs.flatten := by
      have hflatten := cutFrom_flatten cols margin.later (openWidth margin.first t) ts
      rw [hcut] at hflatten
      exact hflatten.symm
    rw [cut, hcut, hwhole]
    exact greedy_cons hfits hfull hrest

theorem count_newline_escapeLineStart (t : Text) :
    (escapeLineStart t).count '\n' = t.count '\n' := by
  by_cases hordered : isOrderedMarker t = true
  · obtain ⟨digits, d, rfl, -⟩ := orderedMarker_parts hordered
    simp [escapeLineStart, hordered]
  · by_cases hleading : isLeadingMarker t = true <;> simp [escapeLineStart, hordered, hleading]

def innerBreaks (ts : List Text) : Nat := ts.flatten.count '\n'

theorem count_newline_lineBody (g : List Text) : (lineBody g).count '\n' = innerBreaks g := by
  cases g with
  | nil => rfl
  | cons t ts =>
    have htail : (spacedTail ts).count '\n' = innerBreaks ts := by
      induction ts with
      | nil => rfl
      | cons u us ih => simp [ih, innerBreaks]
    rw [lineBody, List.count_append, count_newline_escapeLineStart, htail, innerBreaks, innerBreaks,
      List.flatten_cons, List.count_append]

theorem innerBreaks_append (ts us : List Text) :
    innerBreaks (ts ++ us) = innerBreaks ts + innerBreaks us := by
  simp [innerBreaks]

theorem count_newline_later (later : Text) (gs : List (List Text)) :
    (unlines (gs.map (later ++ lineBody ·))).count '\n' =
      gs.length * (later.count '\n' + 1) + innerBreaks gs.flatten := by
  induction gs with
  | nil => simp [innerBreaks]
  | cons g gs ih =>
    simp only [List.map_cons, unlines_cons, List.count_append, List.count_cons_self, ih,
      count_newline_lineBody, List.flatten_cons, innerBreaks_append, List.length_cons,
      Nat.succ_mul]
    omega

theorem count_newline_groupLines (margin : Margin) (g : List Text) (gs : List (List Text)) :
    (unlines (groupLines margin (g :: gs))).count '\n' = margin.first.count '\n' + 1 +
      gs.length * (margin.later.count '\n' + 1) + innerBreaks (g :: gs).flatten := by
  simp only [groupLines, unlines_cons, List.count_append, List.count_cons_self,
    count_newline_lineBody, count_newline_later, List.flatten_cons, innerBreaks_append]
  omega

theorem count_newline_le_of_length_le (margin : Margin) {gs hs : List (List Text)}
    (hflatten : gs.flatten = hs.flatten) (hlength : gs.length ≤ hs.length) :
    (unlines (groupLines margin gs)).count '\n' ≤ (unlines (groupLines margin hs)).count '\n' := by
  cases gs with
  | nil => exact Nat.zero_le _
  | cons g gs =>
    cases hs with
    | nil => exact absurd hlength (Nat.not_succ_le_zero _)
    | cons h hs =>
      have hlater := Nat.mul_le_mul_right (margin.later.count '\n' + 1)
        (Nat.le_of_succ_le_succ hlength)
      rw [count_newline_groupLines, count_newline_groupLines, hflatten]
      omega

/-- A fresh flow cuts tokens into lines in the one greedy way, and writes each line behind its
margin with only its first token escaped. -/
theorem fill_is_the_greedy_division (cols : Nat) (a b : Text) (ts : List Text)
    (hts : ∀ t ∈ ts, t ≠ []) :
    ∃ gs, fill cols ⟨a, b⟩ ts = unlines (groupLines ⟨a, b⟩ gs) ∧ Greedy cols ⟨a, b⟩ ts gs ∧
      ∀ hs, Greedy cols ⟨a, b⟩ ts hs → hs = gs := by
  have hgreedy := cut_greedy cols ⟨a, b⟩ ts
  exact ⟨cut cols ⟨a, b⟩ ts, fill_eq_unlines cols ⟨a, b⟩ ts hts, hgreedy,
    fun hs hother => hother.unique hgreedy⟩

/-- Markers among words, and a word wider than a line. -/
def bulletTokens : List Text :=
  ["one".toList, "-".toList, "two".toList, "1.".toList, "extraordinary".toList, "+".toList]

def bulletGroups : List (List Text) :=
  [["one".toList, "-".toList], ["two".toList, "1.".toList], ["extraordinary".toList],
    ["+".toList]]

theorem fill_is_the_greedy_division_bullets :
    "-".toList ∈ bulletTokens ∧ (∀ t ∈ bulletTokens, t ≠ []) ∧
      Greedy 8 ⟨"- ".toList, "  ".toList⟩ bulletTokens bulletGroups ∧
      fill 8 ⟨"- ".toList, "  ".toList⟩ bulletTokens =
        "- one -\n  two 1.\n  extraordinary\n  \\+\n".toList := by
  have hgreedy : Greedy 8 ⟨"- ".toList, "  ".toList⟩ bulletTokens bulletGroups := by decide
  obtain ⟨gs, hfill, -, hunique⟩ := fill_is_the_greedy_division 8 "- ".toList "  ".toList
    bulletTokens (by decide)
  refine ⟨by decide, by decide, hgreedy, ?_⟩
  rw [hfill, ← hunique bulletGroups hgreedy]
  decide

/-- No way to cut tokens into lines that fit takes fewer lines than a fresh flow writes, and more
columns never make it write more. -/
theorem fill_takes_fewest_lines (cols : Nat) (margin : Margin) (ts : List Text)
    (hts : ∀ t ∈ ts, t ≠ []) :
    fill cols margin ts = unlines (groupLines margin (cut cols margin ts)) ∧
    Division cols margin ts (cut cols margin ts) ∧
    (∀ gs, Division cols margin ts gs → (cut cols margin ts).length ≤ gs.length ∧
      (fill cols margin ts).count '\n' ≤ (unlines (groupLines margin gs)).count '\n') ∧
    ∀ wider, cols ≤ wider → (cut wider margin ts).length ≤ (cut cols margin ts).length ∧
      (fill wider margin ts).count '\n' ≤ (fill cols margin ts).count '\n' := by
  -- what both statements on least numbers come from, for any budget
  have hleast : ∀ budget gs, Division budget margin ts gs →
      (cut budget margin ts).length ≤ gs.length ∧
        (fill budget margin ts).count '\n' ≤ (unlines (groupLines margin gs)).count '\n' := by
    intro budget gs hd
    have hlength := (cut_greedy budget margin ts).length_le (p := []) hd
    have hflatten := (cut_flatten budget margin ts).trans hd.whole.symm
    rw [fill_eq_unlines budget margin ts hts]
    exact ⟨hlength, count_newline_le_of_length_le margin hflatten hlength⟩
  have hcut := (cut_greedy cols margin ts).toDivision
  refine ⟨fill_eq_unlines cols margin ts hts, hcut, hleast cols, ?_⟩
  intro wider hcols
  rw [fill_eq_unlines cols margin ts hts]
  exact hleast wider (cut cols margin ts) (hcut.mono hcols)

theorem fill_takes_fewest_lines_bullets :
    "-".toList ∈ bulletTokens ∧ (∀ t ∈ bulletTokens, t ≠ []) ∧
      (∀ gs, Division 8 ⟨"- ".toList, "  ".toList⟩ bulletTokens gs → 4 ≤ gs.length) ∧
      (cut 17 ⟨"- ".toList, "  ".toList⟩ bulletTokens).length ≤ 4 := by
  obtain ⟨-, -, hleast, hmono⟩ := fill_takes_fewest_lines 8 ⟨"- ".toList, "  ".toList⟩
    bulletTokens (by decide)
  have hlines : (cut 8 ⟨"- ".toList, "  ".toList⟩ bulletTokens).length = 4 := by decide
  rw [hlines] at hleast hmono
  exact ⟨by decide, by decide, fun gs hd => (hleast gs hd).1, (hmono 17 (by decide)).1⟩

end Layout
end CanonMark
