import CanonMark.Proofs.Markdown.Passing
import Mathlib.Data.List.TakeWhile
import Mathlib.Tactic.MkIffOfInductiveProp

/-! # Lines that open no block

Whether a line opens a block is decided by its first word, up to the first spacing, and in the case
of a fence of backticks by the backticks behind it. The layout shields first words that would open
one, so a filled line opens none.
-/
namespace CanonMark.Markdown

open Layout (isOrderedMarker isLeadingMarker isAll escapeLineStart lineBody spacedTail
  orderedMarker_parts)

/-- The word that a line begins with. -/
def leadWord (t : Text) : Text := t.takeWhile (!Text.isSpacing ·)

/-- A word that the layout shields at the start of a line. -/
def isMarker (w : Text) : Bool := isOrderedMarker w || isLeadingMarker w

def Visible (t : Text) : Prop := ∃ c ∈ t.head?, Text.isSpacing c = false

instance : (t : Text) → Decidable (Visible t)
  | [] => isFalse (by simp [Visible])
  | c :: t => decidable_of_iff (Text.isSpacing c = false) (by simp [Visible])

/-- What no line of a paragraph may be, other than a table row. -/
structure Calm (t : Text) : Prop where
  visible : Visible t
  thematic : isThematicBreak t = false
  heading : headingLevel? t = none
  fence : fence? t = none
  quote : t.head? ≠ some '>'
  marker : listMarker? t = none
  html : htmlEnd? t = none
  tag : opensBlockTag t = false
  underline : underlineLevel? t = none
  /-- Behind a bullet such a word could make a thematic break. -/
  dashes : isAll '-' (leadWord t) = false

theorem Calm.interrupts {t : Text} (h : Calm t) (free : Bool) : interrupts free t = false := by
  obtain ⟨c, hc, -⟩ := h.visible
  have hne : t.isEmpty = false := by
    cases t with
    | nil => simp at hc
    | cons => rfl
  simp [Markdown.interrupts, hne, h.thematic, h.heading, h.fence, h.quote, markerInterrupts,
    h.marker, h.html, h.tag]

theorem Calm.flush {t : Text} (h : Calm t) : Flush t := by
  obtain ⟨c, hc, hs⟩ := h.visible
  intro d hd
  have hcd : d = c := by
    rw [Option.mem_def] at hc hd
    rw [hc] at hd
    exact (Option.some.inj hd).symm
  subst hcd
  simp only [Text.isSpacing, Bool.or_eq_false_iff] at hs
  simp [Text.isSpaceOrTab, hs]

theorem Calm.ne_nil {t : Text} (h : Calm t) : t ≠ [] := by
  obtain ⟨c, hc, -⟩ := h.visible
  intro he
  simp [he] at hc

theorem Calm.not_blank {t : Text} (h : Calm t) : isBlankText t = false := by
  obtain ⟨c, hc, hs⟩ := h.visible
  cases t with
  | nil => simp at hc
  | cons d t =>
    have : d = c := by simpa using hc
    simp [isBlankText, this, hs]

theorem leadWord_append {r d : Text} (hr : ∀ c ∈ r, Text.isSpacing c = false)
    (hd : ∀ c ∈ d.head?, Text.isSpacing c = true) : leadWord (r ++ d) = r := by
  have hnil : d.takeWhile (!Text.isSpacing ·) = [] := by
    cases d with
    | nil => rfl
    | cons c d =>
      have hc := hd c rfl
      simp [hc]
  rw [leadWord, List.takeWhile_append_of_pos (by simpa using hr), hnil, List.append_nil]

theorem leadWord_not_spacing (t : Text) : ∀ c ∈ leadWord t, Text.isSpacing c = false := by
  intro c hc
  simpa using List.mem_takeWhile_imp hc

theorem leadWord_rest (t : Text) :
    ∃ d, t = leadWord t ++ d ∧ ∀ c ∈ d.head?, Text.isSpacing c = true := by
  refine ⟨t.dropWhile (!Text.isSpacing ·), (List.takeWhile_append_dropWhile).symm, ?_⟩
  intro c hc
  have := List.head?_dropWhile_not (!Text.isSpacing ·) t
  rw [Option.mem_def] at hc
  rw [hc] at this
  simpa using this

theorem isPrefixOf_leadWord {p t : Text} (hp : ∀ c ∈ p, Text.isSpacing c = false)
    (h : p.isPrefixOf t) : p.isPrefixOf (leadWord t) := by
  obtain ⟨d, rfl⟩ := List.isPrefixOf_iff_prefix.mp h
  rw [leadWord, List.takeWhile_append_of_pos (by simpa using hp)]
  exact List.isPrefixOf_iff_prefix.mpr ⟨_, rfl⟩

theorem leadWord_of_takeWhile {p : Char → Bool} (hp : ∀ c, p c → Text.isSpacing c = false)
    {t : Text} (h : ∀ c ∈ (t.drop (t.takeWhile p).length).head?, Text.isSpacing c = true) :
    leadWord t = t.takeWhile p := by
  have hsplit : t = t.takeWhile p ++ t.drop (t.takeWhile p).length := by
    have := List.prefix_iff_eq_append.mp (List.takeWhile_prefix p (l := t))
    exact this.symm
  have hr : ∀ c ∈ t.takeWhile p, Text.isSpacing c = false :=
    fun c hc => hp c (List.mem_takeWhile_imp hc)
  have := leadWord_append hr h
  rwa [← hsplit] at this

theorem isAll_runLength {c : Char} {t : Text} (h : 1 ≤ Text.runLength c t) :
    isAll c (t.takeWhile (· == c)) = true := by
  have hall : (t.takeWhile (· == c)).all (· == c) = true :=
    List.all_eq_true.mpr fun d hd => by simpa using List.mem_takeWhile_imp hd
  have hne : (t.takeWhile (· == c)).isEmpty = false := by
    rw [Text.runLength] at h
    cases htw : t.takeWhile (· == c) with
    | nil => simp [htw] at h
    | cons => rfl
  simp [isAll, hne, hall]

theorem isAll_leadWord {c : Char} (hc : Text.isSpacing c = false) {t : Text}
    (hrun : 1 ≤ Text.runLength c t)
    (h : ∀ d ∈ (t.drop (Text.runLength c t)).head?, Text.isSpacing d = true) :
    isAll c (leadWord t) = true := by
  have hlead : leadWord t = t.takeWhile (· == c) :=
    leadWord_of_takeWhile (fun d hd => by rw [beq_iff_eq.mp hd]; exact hc) h
  rw [hlead]
  exact isAll_runLength hrun

theorem isAll_leadWord_of_all {c d : Char} {t : Text}
    (h : ∀ x ∈ d :: t, x = c ∨ Text.isSpacing x = true) (hd : Text.isSpacing d = false) :
    isAll c (leadWord (d :: t)) = true := by
  have hne : leadWord (d :: t) ≠ [] := by simp [leadWord, hd]
  have hall : ∀ x ∈ leadWord (d :: t), x = c := by
    intro x hx
    have hs := leadWord_not_spacing _ x hx
    rcases h x ((List.takeWhile_prefix _).subset hx) with he | he
    · exact he
    · rw [he] at hs
      cases hs
  simp only [isAll, Bool.and_eq_true, Bool.not_eq_true', List.all_eq_true, beq_iff_eq]
  exact ⟨by simpa using hne, hall⟩

/-- A word that opens no block at the start of a line, whatever follows behind spacing. Fences of
backticks are left out. -/
structure Mild (w : Text) : Prop where
  nonempty : w ≠ []
  marker : isMarker w = false
  stars : isAll '*' w = false
  bars : isAll '_' w = false
  html : htmlEnd? w = none
  tag : opensBlockTag w = false

theorem isMarker_eq_false {w : Text} : isMarker w = false ↔
    isOrderedMarker w = false ∧ isAll '-' w = false ∧ isAll '+' w = false ∧ isAll '=' w = false ∧
      isAll '#' w = false ∧ w.head? ≠ some '>' ∧ "~~~".toList.isPrefixOf w = false := by
  simp only [isMarker, isLeadingMarker, Bool.or_eq_false_iff, beq_eq_false_iff_ne, and_assoc]

theorem replicate_prefix {c : Char} {t : Text} {n : Nat} (h : n ≤ Text.runLength c t) :
    List.replicate n c <+: t := by
  have hall : t.takeWhile (· == c) = List.replicate (Text.runLength c t) c :=
    List.eq_replicate_iff.mpr ⟨rfl, fun d hd => by simpa using List.mem_takeWhile_imp hd⟩
  have hpre : List.replicate (Text.runLength c t) c <+: t := hall ▸ List.takeWhile_prefix _
  exact (List.prefix_replicate_iff.mpr ⟨by simpa using h, by simp⟩).trans hpre

theorem isSpacing_of_isSpaceOrTab {c : Char} (h : Text.isSpaceOrTab c = true) :
    Text.isSpacing c = true := by
  simp only [Text.isSpaceOrTab, Bool.or_eq_true] at h
  simp only [Text.isSpacing, Bool.or_eq_true]
  exact Or.inl (Or.inl h)

theorem isDigit_not_spacing {c : Char} (h : Text.isDigit c = true) : Text.isSpacing c = false := by
  by_contra hs
  simp only [Text.isSpacing, Bool.not_eq_false, Bool.or_eq_true, beq_iff_eq] at hs
  rcases hs with ((rfl | rfl) | rfl) | rfl <;> exact absurd h (by decide)

theorem orderedMarker_not_spacing {t : Text} (h : isOrderedMarker t = true) :
    ∀ c ∈ t, Text.isSpacing c = false := by
  obtain ⟨digits, d, rfl, hd, hdigits, -⟩ := orderedMarker_parts h
  intro c hc
  rcases List.mem_append.mp hc with hc | hc
  · exact isDigit_not_spacing (hdigits c hc)
  · obtain rfl : c = d := by simpa using hc
    rcases hd with rfl | rfl <;> rfl

theorem listMarker_cases {t : Text} {m : ListMark × Nat × Nat} (h : listMarker? t = some m) :
    (∃ c u, t = c :: u ∧ (c = '-' ∨ c = '+' ∨ c = '*') ∧
        ∀ x ∈ u.head?, Text.isSpacing x = true) ∨
      ∃ digits d u, t = digits ++ d :: u ∧ isOrderedMarker (digits ++ [d]) = true ∧
        ∀ x ∈ u.head?, Text.isSpacing x = true := by
  cases t with
  | nil => cases h
  | cons c t =>
    rw [listMarker?, Option.filter_eq_some_iff] at h
    obtain ⟨hfound, hspace⟩ := h
    have hspacing : ∀ x ∈ ((c :: t).drop m.2.2).head?, Text.isSpacing x = true := by
      intro x hx
      rw [Option.mem_def] at hx
      exact isSpacing_of_isSpaceOrTab (by simpa [hx] using hspace)
    by_cases hbullet : (c == '-' || c == '+' || c == '*') = true
    · rw [if_pos hbullet] at hfound
      obtain rfl := Option.some.inj hfound
      refine Or.inl ⟨c, t, rfl, ?_, hspacing⟩
      simpa [or_assoc] using hbullet
    · rw [if_neg hbullet] at hfound
      simp only at hfound
      generalize hdigits : (c :: t).takeWhile Text.isDigit = digits at hfound
      have hpre : digits <+: c :: t := hdigits ▸ List.takeWhile_prefix _
      have hall : ∀ x ∈ digits, Text.isDigit x = true := by
        intro x hx
        rw [← hdigits] at hx
        exact List.mem_takeWhile_imp hx
      obtain ⟨u, hu⟩ := hpre
      rw [← hu, List.drop_left] at hfound
      cases u with
      | nil => simp at hfound
      | cons d u =>
        simp only [List.head?_cons] at hfound
        split at hfound
        · cases hfound
        · next hlen =>
          split at hfound
          · next hmark =>
            obtain rfl := Option.some.inj hfound
            simp only [Bool.or_eq_true, decide_eq_true_eq, not_or] at hlen
            have hne : digits ≠ [] := by simpa using hlen.1
            have hpos : 1 ≤ digits.length := List.length_pos_iff.mpr hne
            have hnine : digits.length ≤ 9 := by omega
            refine Or.inr ⟨digits, d, u, hu.symm, ?_, ?_⟩
            · simp [isOrderedMarker, hpos, hnine, hmark, List.all_eq_true.mpr hall]
            · rw [← hu] at hspacing
              simpa using hspacing
          · cases hfound

section

variable {t : Text} (h : Mild (leadWord t))
include h

theorem Mild.visible : Visible t := by
  cases t with
  | nil => exact absurd rfl h.nonempty
  | cons c t =>
    refine ⟨c, rfl, ?_⟩
    by_contra hc
    exact h.nonempty (by simp [leadWord, hc])

theorem Mild.thematic : isThematicBreak t = false := by
  obtain ⟨c, hc, hs⟩ := h.visible
  cases t with
  | nil => rfl
  | cons d t =>
    obtain rfl : d = c := by simpa using hc
    by_contra hb
    simp only [isThematicBreak, Bool.not_eq_false, Bool.and_eq_true, Bool.or_eq_true, beq_iff_eq,
      List.all_eq_true] at hb
    have hall : isAll d (leadWord (d :: t)) = true := by
      refine isAll_leadWord_of_all (fun x hx => ?_) hs
      rcases hb.1.2 x hx with he | he
      · exact Or.inl he
      · right
        simp only [Text.isSpaceOrTab, Bool.or_eq_true] at he
        simp only [Text.isSpacing, Bool.or_eq_true]
        exact Or.inl (Or.inl he)
    rcases hb.1.1 with (rfl | rfl) | rfl
    · rw [h.stars] at hall
      cases hall
    · rw [(isMarker_eq_false.mp h.marker).2.1] at hall
      cases hall
    · rw [h.bars] at hall
      cases hall

theorem Mild.heading (hl : OneLine t) : headingLevel? t = none := by
  by_contra hb
  simp only [headingLevel?, ite_eq_right_iff, reduceCtorEq, imp_false, Bool.and_eq_true,
    decide_eq_true_eq, not_not] at hb
  have hall : isAll '#' (leadWord t) = true := by
    refine isAll_leadWord rfl hb.1.1 fun d hd => ?_
    have hblank := hb.2
    rw [Option.mem_def] at hd
    rw [hd] at hblank
    have hmem : d ∈ t := List.mem_of_mem_drop (List.mem_of_mem_head? hd)
    have hn : d ≠ '\n' := fun e => hl.1 (e ▸ hmem)
    have hr : d ≠ '\r' := fun e => hl.2 (e ▸ hmem)
    simpa [Text.isAsciiBlank, hn, hr] using hblank
  rw [(isMarker_eq_false.mp h.marker).2.2.2.2.1] at hall
  cases hall

theorem Mild.quote : t.head? ≠ some '>' := by
  intro hq
  cases t with
  | nil => simp at hq
  | cons c t =>
    obtain rfl : c = '>' := by simpa using hq
    exact (isMarker_eq_false.mp h.marker).2.2.2.2.2.1 (by simp [leadWord, Text.isSpacing])

theorem Mild.underline : underlineLevel? t = none := by
  cases t with
  | nil => rfl
  | cons c t =>
    by_contra hb
    simp only [underlineLevel?, ite_eq_right_iff, reduceCtorEq, imp_false, Bool.and_eq_true,
      Bool.or_eq_true, beq_iff_eq, not_not] at hb
    have hall : Text.isSpacing c = false → isAll c (leadWord (c :: t)) = true := by
      intro hs
      refine isAll_leadWord hs (by simp [Text.runLength]) fun d hd => ?_
      exact List.all_eq_true.mp hb.2 d (List.mem_of_mem_head? hd)
    rcases hb.1 with rfl | rfl
    · have := hall rfl
      rw [(isMarker_eq_false.mp h.marker).2.2.2.1] at this
      cases this
    · have := hall rfl
      rw [(isMarker_eq_false.mp h.marker).2.1] at this
      cases this

theorem Mild.listMarker : listMarker? t = none := by
  by_contra hb
  obtain ⟨⟨mark, number, length⟩, hm⟩ := Option.ne_none_iff_exists'.mp hb
  obtain ⟨hordered, hdash, hplus, -⟩ := isMarker_eq_false.mp h.marker
  rcases listMarker_cases hm with ⟨c, u, rfl, hc, hu⟩ | ⟨digits, d, u, rfl, hd, hu⟩
  · have hs : ∀ x ∈ [c], Text.isSpacing x = false := by
      rcases hc with rfl | rfl | rfl <;> simp [Text.isSpacing]
    have hw : leadWord ([c] ++ u) = [c] := leadWord_append hs hu
    rw [List.singleton_append] at hw
    have hstar := h.stars
    rw [hw] at hdash hplus hstar
    rcases hc with rfl | rfl | rfl
    · cases hdash
    · cases hplus
    · cases hstar
  · have hw : leadWord (digits ++ [d] ++ u) = digits ++ [d] :=
      leadWord_append (orderedMarker_not_spacing hd) hu
    rw [List.append_assoc, List.singleton_append] at hw
    rw [hw, hd] at hordered
    cases hordered

theorem Mild.fence (hticks : Text.runLength '\x60' t < 3 ∨
    (t.drop (Text.runLength '\x60' t)).any (· == '\x60') = true) : fence? t = none := by
  cases t with
  | nil => rfl
  | cons c t =>
    simp only [fence?]
    split
    · rfl
    · next hlong =>
      have htilde : c ≠ '~' := by
        rintro rfl
        have hpre : "~~~".toList.isPrefixOf ('~' :: t) = true := by
          have hrun : List.replicate 3 '~' <+: '~' :: t := replicate_prefix (by omega)
          exact List.isPrefixOf_iff_prefix.mpr hrun
        have := isPrefixOf_leadWord (by simp [Text.isSpacing]) hpre
        rw [(isMarker_eq_false.mp h.marker).2.2.2.2.2.2] at this
        cases this
      have hc : (c == '~') = false := by simpa using htilde
      rw [hc]
      by_cases ht : c = '\x60'
      · subst ht
        rcases hticks with hshort | hany
        · exact absurd hshort hlong
        · simp [hany]
      · simp [ht]

end

theorem isPrefixOf_append_spacing {p w d : Text} (hp : ∀ c ∈ p, Text.isSpacing c = false)
    (hd : ∀ c ∈ d.head?, Text.isSpacing c = true) : p.isPrefixOf (w ++ d) = p.isPrefixOf w := by
  induction p generalizing w with
  | nil => simp
  | cons x p ih =>
    have hx : Text.isSpacing x = false := hp x (by simp)
    have hp' : ∀ c ∈ p, Text.isSpacing c = false := fun c hc => hp c (by simp [hc])
    cases w with
    | nil =>
      cases d with
      | nil => rfl
      | cons y d =>
        have hy := hd y rfl
        have hne : (x == y) = false := by
          simp only [beq_eq_false_iff_ne]
          rintro rfl
          rw [hy] at hx
          cases hx
        simp [List.isPrefixOf, hne]
    | cons y w => simp [List.isPrefixOf, ih hp']

theorem head_drop_append_spacing {p w d : Text} {q : Char → Bool}
    (hq : ∀ c, Text.isSpacing c = true → q c = true)
    (hd : ∀ c ∈ d.head?, Text.isSpacing c = true) (h : p.length ≤ w.length) :
    ((w ++ d).drop p.length).head?.all q = (w.drop p.length).head?.all q := by
  rw [List.drop_append_of_le_length h]
  cases hw : w.drop p.length with
  | nil =>
    cases d with
    | nil => rfl
    | cons c d => simp [hq c (hd c rfl)]
  | cons => rfl

theorem lower_of_isSpacing {c : Char} (h : Text.isSpacing c = true) : Text.lower c = c := by
  simp only [Text.isSpacing, Bool.or_eq_true, beq_iff_eq] at h
  rcases h with ((rfl | rfl) | rfl) | rfl <;> rfl

theorem opening_append_spacing {p w d : Text} (hp : ∀ c ∈ p, Text.isSpacing c = false)
    (hd : ∀ c ∈ d.head?, Text.isSpacing c = true) :
    (p.isPrefixOf ((w ++ d).map Text.lower) &&
        ((w ++ d).drop p.length).head?.all (fun c => Text.isAsciiBlank c || c == '>')) =
      (p.isPrefixOf (w.map Text.lower) &&
        (w.drop p.length).head?.all (fun c => Text.isAsciiBlank c || c == '>')) := by
  have hlower : ∀ c ∈ (d.map Text.lower).head?, Text.isSpacing c = true := by
    intro c hc
    rw [List.head?_map, Option.mem_def, Option.map_eq_some_iff] at hc
    obtain ⟨a, ha, rfl⟩ := hc
    rw [lower_of_isSpacing (hd a ha)]
    exact hd a ha
  rw [List.map_append, isPrefixOf_append_spacing hp hlower]
  cases hpre : p.isPrefixOf (w.map Text.lower) with
  | false => rfl
  | true =>
    have hle : p.length ≤ w.length := by
      simpa using (List.isPrefixOf_iff_prefix.mp hpre).length_le
    have hq : ∀ c, Text.isSpacing c = true → (Text.isAsciiBlank c || c == '>') = true := by
      intro c hc
      simp [Text.isAsciiBlank, hc]
    rw [head_drop_append_spacing hq hd hle]

theorem htmlEnd_leadWord (t : Text) : htmlEnd? t = htmlEnd? (leadWord t) := by
  obtain ⟨d, ht, hd⟩ := leadWord_rest t
  generalize leadWord t = w at ht
  subst ht
  simp only [htmlEnd?]
  rw [opening_append_spacing (by simp [Text.isSpacing]) hd,
    opening_append_spacing (by simp [Text.isSpacing]) hd,
    opening_append_spacing (by simp [Text.isSpacing]) hd,
    opening_append_spacing (by simp [Text.isSpacing]) hd,
    isPrefixOf_append_spacing (by simp [Text.isSpacing]) hd,
    isPrefixOf_append_spacing (by simp [Text.isSpacing]) hd,
    isPrefixOf_append_spacing (by simp [Text.isSpacing]) hd]
  generalize List.findSome? id _ = found
  cases found with
  | some ending => rfl
  | none =>
    simp only
    split
    · next c u he =>
      rcases w with _ | ⟨a, _ | ⟨b, _ | ⟨c', w⟩⟩⟩
      · have := hd '<' (by rw [List.nil_append] at he; simp [he])
        cases this
      · obtain ⟨rfl, rfl⟩ : a = '<' ∧ d = '!' :: c :: u := by simpa using he
        cases hd '!' rfl
      · obtain ⟨rfl, rfl, rfl⟩ : a = '<' ∧ b = '!' ∧ d = c :: u := by simpa using he
        have hc : Text.isLetter c = false := by
          have := hd c rfl
          simp only [Text.isSpacing, Bool.or_eq_true, beq_iff_eq] at this
          rcases this with ((rfl | rfl) | rfl) | rfl <;> rfl
        simp [hc]
      · obtain ⟨rfl, rfl, rfl, -⟩ : a = '<' ∧ b = '!' ∧ c' = c ∧ w ++ d = u := by simpa using he
        rfl
    · next hno =>
      split
      · next c u => exact absurd rfl (hno c (u ++ d))
      · rfl

theorem takeWhile_append_spacing {p : Char → Bool} {w d : Text}
    (hp : ∀ c, Text.isSpacing c = true → p c = false)
    (hd : ∀ c ∈ d.head?, Text.isSpacing c = true) : (w ++ d).takeWhile p = w.takeWhile p := by
  have hnil : d.takeWhile p = [] := by
    cases d with
    | nil => rfl
    | cons c d => simp [hp c (hd c rfl)]
  rw [List.takeWhile_append, hnil, List.append_nil]
  split
  · next h => exact (List.IsPrefix.eq_of_length (List.takeWhile_prefix p) h).symm
  · rfl

theorem isLetterOrDigit_of_isSpacing {c : Char} (h : Text.isSpacing c = true) :
    Text.isLetterOrDigit c = false := by
  simp only [Text.isSpacing, Bool.or_eq_true, beq_iff_eq] at h
  rcases h with ((rfl | rfl) | rfl) | rfl <;> rfl

/-- What stands behind the name of a tag and ends it in the line ends it in the first word too. -/
theorem tag_end_append_spacing {w d : Text} (hd : ∀ c ∈ d.head?, Text.isSpacing c = true)
    (n : Nat) (hn : n ≤ w.length)
    (h : ((w ++ d).drop n).head?.all (fun c => Text.isSpaceOrTab c || c == '>') = true ∨
      "/>".toList.isPrefixOf ((w ++ d).drop n) = true) :
    (w.drop n).head?.all (fun c => Text.isSpaceOrTab c || c == '>') = true ∨
      "/>".toList.isPrefixOf (w.drop n) = true := by
  rw [List.drop_append_of_le_length hn,
    isPrefixOf_append_spacing (by simp [Text.isSpacing]) hd] at h
  cases hw : w.drop n with
  | nil => exact Or.inl rfl
  | cons c w =>
    rw [hw] at h
    exact h

theorem opensBlockTag_leadWord {t : Text} (h : opensBlockTag t = true) :
    opensBlockTag (leadWord t) = true := by
  obtain ⟨d, ht, hd⟩ := leadWord_rest t
  generalize leadWord t = w at ht
  subst ht
  -- the tag behind its slash, if it has one
  have hstem : ∀ u : Text, blockTags.any (fun tag =>
        tag.toList == ((u ++ d).takeWhile Text.isLetterOrDigit).map Text.lower) = true →
      (((u ++ d).drop ((u ++ d).takeWhile Text.isLetterOrDigit).length).head?.all
          (fun c => Text.isSpaceOrTab c || c == '>') = true ∨
        "/>".toList.isPrefixOf
          ((u ++ d).drop ((u ++ d).takeWhile Text.isLetterOrDigit).length) = true) →
      blockTags.any (fun tag =>
        tag.toList == (u.takeWhile Text.isLetterOrDigit).map Text.lower) = true ∧
      ((u.drop (u.takeWhile Text.isLetterOrDigit).length).head?.all
          (fun c => Text.isSpaceOrTab c || c == '>') = true ∨
        "/>".toList.isPrefixOf (u.drop (u.takeWhile Text.isLetterOrDigit).length) = true) := by
    intro u hname hend
    rw [takeWhile_append_spacing (fun c hc => isLetterOrDigit_of_isSpacing hc) hd] at hname hend
    exact ⟨hname, tag_end_append_spacing hd _ (List.takeWhile_prefix _).length_le hend⟩
  cases w with
  | nil =>
    cases d with
    | nil => cases h
    | cons c d =>
      have hc := hd c rfl
      have hne : c ≠ '<' := by
        rintro rfl
        cases hc
      simp [opensBlockTag, hne] at h
  | cons c w =>
    by_cases hc : c = '<'
    · subst hc
      simp only [List.cons_append, opensBlockTag, Bool.and_eq_true, Bool.or_eq_true] at h ⊢
      by_cases he : ((w ++ d).head? == some '/') = true
      · rw [if_pos he] at h
        cases w with
        | nil =>
          have hslash : d.head? = some '/' := by simpa using he
          cases hd '/' hslash
        | cons e w =>
          rw [if_pos (by simpa using he)]
          exact hstem w h.1 h.2
      · rw [if_neg he] at h
        cases w with
        | nil => exact hstem [] h.1 h.2
        | cons e w =>
          rw [if_neg (by simpa using he)]
          exact hstem (e :: w) h.1 h.2
    · simp [opensBlockTag, hc] at h

theorem Mild.calm {t : Text} (h : Mild (leadWord t)) (hl : OneLine t)
    (hticks : Text.runLength '\x60' t < 3 ∨
      (t.drop (Text.runLength '\x60' t)).any (· == '\x60') = true) : Calm t where
  visible := h.visible
  thematic := h.thematic
  heading := h.heading hl
  fence := h.fence hticks
  quote := h.quote
  marker := h.listMarker
  html := htmlEnd_leadWord t ▸ h.html
  tag := by
    by_contra hb
    have := opensBlockTag_leadWord (Bool.not_eq_false _ ▸ hb)
    rw [h.tag] at this
    cases this
  underline := h.underline
  dashes := (isMarker_eq_false.mp h.marker).2.1

theorem lower_ne_angle {c : Char} (h : c ≠ '<') : Text.lower c ≠ '<' := by
  unfold Text.lower
  split
  · next hu =>
    simp only [Text.isUpper, Bool.and_eq_true, decide_eq_true_eq, Char.le_def] at hu
    have hlo : 65 ≤ c.toNat := hu.1
    have hhi : c.toNat < 91 := Nat.lt_succ_of_le hu.2
    have hall : ∀ n < 91, 65 ≤ n → Char.ofNat (n + 32) ≠ '<' := by decide
    exact hall _ hhi hlo
  · exact h

theorem htmlEnd_of_head {c : Char} {w : Text} (h : c ≠ '<') : htmlEnd? (c :: w) = none := by
  have hl : ('<' == Text.lower c) = false := by simpa using (lower_ne_angle h).symm
  have hc : ('<' == c) = false := by simpa using h.symm
  simp [htmlEnd?, List.isPrefixOf, hl, hc, h]

def isOpening (c : Char) : Bool := "-+=#>~*_<\x60".toList.contains c

theorem mild_of_head {c : Char} {w : Text} (hc : isOpening c = false)
    (ho : isOrderedMarker (c :: w) = false) : Mild (c :: w) := by
  have hne : ∀ d, isOpening d = true → c ≠ d := by
    rintro d hd rfl
    rw [hc] at hd
    cases hd
  have hall : ∀ d, isOpening d = true → isAll d (c :: w) = false := by
    intro d hd
    simp [isAll, hne d hd]
  refine ⟨by simp, ?_, hall _ rfl, hall _ rfl, ?_, ?_⟩
  · rw [isMarker_eq_false]
    exact ⟨ho, hall _ rfl, hall _ rfl, hall _ rfl, hall _ rfl, by simpa using hne _ rfl,
      by simpa [List.isPrefixOf] using fun h => absurd h.symm (hne '~' rfl)⟩
  · exact htmlEnd_of_head (hne '<' rfl)
  · simp [opensBlockTag, hne '<' rfl]

/-- A token that may begin a line of a paragraph, once the layout has shielded it. -/
@[mk_iff] structure Tame (t : Text) : Prop where
  visible : Visible t
  /-- The layout looks at a whole token, the reader at its first word. -/
  shielded : isMarker (leadWord t) = true → isMarker t = true
  stars : isAll '*' (leadWord t) = false
  bars : isAll '_' (leadWord t) = false
  html : htmlEnd? (leadWord t) = none
  tag : opensBlockTag (leadWord t) = false
  ticks : Text.runLength '\x60' t < 3 ∨
    (t.drop (Text.runLength '\x60' t)).any (· == '\x60') = true

instance (t : Text) : Decidable (Tame t) := decidable_of_iff _ (tame_iff t).symm

theorem spacedTail_head (ts : List Text) : ∀ c ∈ (spacedTail ts).head?, Text.isSpacing c = true := by
  cases ts with
  | nil => simp
  | cons t ts =>
    intro c hc
    obtain rfl : c = ' ' := by simpa [eq_comm] using hc
    rfl

theorem oneLine_append {s t : Text} : OneLine (s ++ t) ↔ OneLine s ∧ OneLine t := by
  simp only [OneLine, List.mem_append, not_or]
  constructor
  · rintro ⟨⟨a, b⟩, c, d⟩
    exact ⟨⟨a, c⟩, b, d⟩
  · rintro ⟨⟨a, c⟩, b, d⟩
    exact ⟨⟨a, b⟩, c, d⟩

theorem oneLine_cons {c : Char} {t : Text} :
    OneLine (c :: t) ↔ (c ≠ '\n' ∧ c ≠ '\r') ∧ OneLine t := by
  rw [← List.singleton_append, oneLine_append]
  simp [OneLine, eq_comm]

theorem oneLine_spacedTail {ts : List Text} (h : ∀ t ∈ ts, OneLine t) : OneLine (spacedTail ts) := by
  induction ts with
  | nil => simp [OneLine]
  | cons t ts ih =>
    rw [Layout.spacedTail_cons, List.cons_append, oneLine_cons, oneLine_append]
    exact ⟨by decide, h t (by simp), ih fun u hu => h u (by simp [hu])⟩

theorem oneLine_escapeLineStart {t : Text} (h : OneLine t) : OneLine (escapeLineStart t) := by
  unfold escapeLineStart
  split
  · next ho =>
    obtain ⟨digits, d, rfl, -⟩ := orderedMarker_parts ho
    rw [oneLine_append] at h
    simp only [List.dropLast_concat, List.getLast?_concat, Option.toList_some]
    rw [oneLine_append, oneLine_cons]
    exact ⟨h.1, by decide, h.2⟩
  · split
    · rw [oneLine_cons]
      exact ⟨by decide, h⟩
    · exact h

theorem oneLine_lineBody {ts : List Text} (h : ∀ t ∈ ts, OneLine t) : OneLine (lineBody ts) := by
  cases ts with
  | nil => exact ⟨by simp [lineBody], by simp [lineBody]⟩
  | cons t ts =>
    rw [lineBody, oneLine_append]
    exact ⟨oneLine_escapeLineStart (h t (by simp)),
      oneLine_spacedTail fun u hu => h u (by simp [hu])⟩

theorem isOpening_of_isDigit {c : Char} (h : Text.isDigit c = true) : isOpening c = false := by
  by_contra hb
  simp only [isOpening, Bool.not_eq_false, List.contains_iff_mem] at hb
  have hnone : ∀ x ∈ "-+=#>~*_<\x60".toList, Text.isDigit x = false := by simp [Text.isDigit]
  rw [hnone c hb] at h
  cases h

theorem shielded_head {t : Text} (h : isMarker t = true) (ts : List Text) :
    ∃ c u, lineBody (t :: ts) = c :: u ∧ isOpening c = false ∧ Text.isSpacing c = false ∧
      isOrderedMarker (leadWord (c :: u)) = false := by
  rw [lineBody, escapeLineStart]
  split
  · next ho =>
    have hspacing := orderedMarker_not_spacing ho
    obtain ⟨digits, d, rfl, -, hdigits, hne⟩ := orderedMarker_parts ho
    have hlead : leadWord (digits ++ ['\\', d] ++ spacedTail ts) = digits ++ ['\\'] ++ [d] := by
      have hword : ∀ c ∈ digits ++ ['\\', d], Text.isSpacing c = false := by
        intro c hc
        rcases List.mem_append.mp hc with hc | hc
        · exact hspacing c (by simp [hc])
        · rcases List.mem_pair.mp hc with rfl | rfl
          · rfl
          · exact hspacing _ (by simp)
      rw [leadWord_append hword (spacedTail_head ts), List.append_assoc]
      rfl
    have hslash : (digits ++ ['\\']).all Text.isDigit = false := by
      rw [List.all_append]
      simp [Text.isDigit]
    cases digits with
    | nil => exact absurd rfl hne
    | cons c digits =>
      have hc := hdigits c (by simp)
      rw [List.dropLast_concat, List.getLast?_concat, Option.toList_some]
      refine ⟨c, digits ++ ['\\', d] ++ spacedTail ts, rfl, isOpening_of_isDigit hc,
        isDigit_not_spacing hc, ?_⟩
      rw [← List.cons_append, ← List.cons_append, hlead]
      simp only [isOrderedMarker, List.getLast?_concat, List.dropLast_concat, hslash,
        Bool.and_false, Bool.false_and]
  · next ho =>
    have hmark : isLeadingMarker t = true := by simpa [isMarker, ho] using h
    have hlead : leadWord ('\\' :: (t ++ spacedTail ts)) =
        '\\' :: leadWord (t ++ spacedTail ts) := by
      simp [leadWord, Text.isSpacing]
    rw [if_pos hmark]
    refine ⟨'\\', t ++ spacedTail ts, rfl, rfl, rfl, ?_⟩
    rw [hlead]
    by_contra hb
    obtain ⟨digits, d, he, -, hdigits, hne⟩ := orderedMarker_parts (Bool.not_eq_false _ ▸ hb)
    cases digits with
    | nil => exact hne rfl
    | cons c digits =>
      obtain ⟨rfl, -⟩ : '\\' = c ∧ leadWord (t ++ spacedTail ts) = digits ++ [d] := by
        simpa using he
      cases hdigits '\\' (by simp)

/-- A line whose first mark opens no block and whose first word is not a numbered marker is calm. -/
theorem calm_of_head {c : Char} {t : Text} (hc : isOpening c = false)
    (hs : Text.isSpacing c = false) (ho : isOrderedMarker (leadWord (c :: t)) = false)
    (hl : OneLine (c :: t)) : Calm (c :: t) := by
  have hlead : leadWord (c :: t) = c :: leadWord t := by simp [leadWord, hs]
  have hmild : Mild (leadWord (c :: t)) := by
    rw [hlead] at ho ⊢
    exact mild_of_head hc ho
  refine hmild.calm hl (Or.inl ?_)
  have hne : (c == '\x60') = false := by
    by_contra hb
    obtain rfl : c = '\x60' := by simpa using hb
    cases hc
  simp [Text.runLength, hne]

theorem escapeLineStart_of_not_marker {t : Text} (h : isMarker t = false) :
    escapeLineStart t = t := by
  simp only [isMarker, Bool.or_eq_false_iff] at h
  simp [escapeLineStart, h.1, h.2]

/-- A filled line opens no block. -/
theorem calm_lineBody {t : Text} {ts : List Text} (h : Tame t) (hl : ∀ u ∈ t :: ts, OneLine u) :
    Calm (lineBody (t :: ts)) := by
  have hline : OneLine (lineBody (t :: ts)) := oneLine_lineBody hl
  cases hm : isMarker t with
  | true =>
    obtain ⟨c, u, hbody, hc, hs, ho⟩ := shielded_head hm ts
    rw [hbody] at hline ⊢
    exact calm_of_head hc hs ho hline
  | false =>
    have hbody : lineBody (t :: ts) = t ++ spacedTail ts := by
      rw [lineBody, escapeLineStart_of_not_marker hm]
    have hword : isMarker (leadWord t) = false := by
      by_contra hb
      have hshield := h.shielded (Bool.not_eq_false _ ▸ hb)
      rw [hm] at hshield
      cases hshield
    obtain ⟨d, hd, hspacing⟩ := leadWord_rest t
    have hlead : leadWord (t ++ spacedTail ts) = leadWord t := by
      conv_lhs => rw [hd, List.append_assoc]
      refine leadWord_append (leadWord_not_spacing t) ?_
      cases d with
      | nil => exact spacedTail_head ts
      | cons c d => exact hspacing
    have hmild : Mild (leadWord (t ++ spacedTail ts)) := by
      rw [hlead]
      refine ⟨?_, hword, h.stars, h.bars, h.html, h.tag⟩
      obtain ⟨c, hc, hs⟩ := h.visible
      cases t with
      | nil => simp at hc
      | cons e t =>
        obtain rfl : e = c := by simpa using hc
        simp [leadWord, hs]
    rw [hbody] at hline ⊢
    refine hmild.calm hline ?_
    have hrun : Text.runLength '\x60' (t ++ spacedTail ts) = Text.runLength '\x60' t := by
      rw [Text.runLength, takeWhile_append_spacing _ (spacedTail_head ts)]
      · rfl
      · intro c hc
        by_contra hb
        obtain rfl : c = '\x60' := by simpa using hb
        cases hc
    rw [hrun]
    rcases h.ticks with hshort | hmore
    · exact Or.inl hshort
    · right
      have hle : Text.runLength '\x60' t ≤ t.length := (List.takeWhile_prefix _).length_le
      rw [List.drop_append_of_le_length hle, List.any_append, hmore, Bool.true_or]

end CanonMark.Markdown
