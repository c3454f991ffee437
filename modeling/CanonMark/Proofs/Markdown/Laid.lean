import CanonMark.Proofs.Layout.Inks
import CanonMark.Proofs.Markdown.BlockStarts
import CanonMark.Proofs.Markdown.Paragraph

/-! # Inks on the page

A reader meets the inks of a run as content: gaps are spaces or line breaks, pipes in a table are
symbols of their own, and a character of a text may have got a backslash at the start of a line.
-/
namespace CanonMark.Markdown

open Layout (Ink inkText fixedInks textInks joined words Evened lineBody spacedTail escapeLineStart
  isOrderedMarker isLeadingMarker orderedMarker_parts cut)

theorem symbol_eq {s : Symbol} {x : Char} (h : s.char? = some x) (hx : x ≠ '|') : s = .char x := by
  cases s with
  | char d => exact congrArg Symbol.char (Option.some.inj h)
  | pipe => exact absurd (Option.some.inj h).symm hx
  | _ => cases h

theorem symbol_test {s : Symbol} {x : Char} (h : s.char? = some x) {p : Char → Bool}
    (hp : p x = false) : s.test p = false := by
  cases s with
  | char d =>
    obtain rfl : d = x := Option.some.inj h
    exact hp
  | _ => rfl

theorem symbol_not_newline {s : Symbol} {x : Char} (h : s.char? = some x) : s.isNewline = false := by
  cases s with
  | newline b => cases h
  | _ => rfl

theorem symbol_not_spacing {s : Symbol} {x : Char} (h : s.char? = some x)
    (hx : Text.isSpacing x = false) : s.isSpacing = false := by
  cases s with
  | char d =>
    obtain rfl : d = x := Option.some.inj h
    exact hx
  | trail w => cases h
  | _ => rfl

/-- Content that was written with inks. -/
inductive Laid : List Ink → Content → Prop where
  | nil : Laid [] []
  | plain {c s is t} : Symbol.char? s = some c → Laid is t → Laid (.plain c :: is) (s :: t)
  | slashed {c is t} : Text.isAsciiPunctuation c = true → Laid is t →
      Laid (.plain c :: is) (.char '\\' :: .char c :: t)
  | shielded {c is t} : Laid is t → Laid (.shielded c :: is) (.char '\\' :: .char c :: t)
  | fixed {c s is t} : Symbol.char? s = some c → Laid is t → Laid (.fixed c :: is) (s :: t)
  | space {is t} : Laid is t → Laid (.gap :: is) (.char ' ' :: t)
  | line {is t b} : b.ending = ['\n'] → Laid is t → Laid (.gap :: is) (.newline b :: t)

theorem Laid.append {is js : List Ink} {s t : Content} (h : Laid is s) (h' : Laid js t) :
    Laid (is ++ js) (s ++ t) := by
  induction h with
  | nil => exact h'
  | plain hc _ ih => exact .plain hc ih
  | slashed hc _ ih => exact .slashed hc ih
  | shielded _ ih => exact .shielded ih
  | fixed hc _ ih => exact .fixed hc ih
  | space _ ih => exact .space ih
  | line hb _ ih => exact .line hb ih

theorem Laid.split {is js : List Ink} {t : Content} (h : Laid (is ++ js) t) :
    ∃ front back, t = front ++ back ∧ Laid is front ∧ Laid js back := by
  induction is generalizing t with
  | nil => exact ⟨[], t, rfl, .nil, h⟩
  | cons i is ih =>
    rw [List.cons_append] at h
    cases h with
    | plain hc h =>
      obtain ⟨front, back, rfl, hfront, hback⟩ := ih h
      exact ⟨_ :: front, back, rfl, .plain hc hfront, hback⟩
    | slashed hc h =>
      obtain ⟨front, back, rfl, hfront, hback⟩ := ih h
      exact ⟨_ :: _ :: front, back, rfl, .slashed hc hfront, hback⟩
    | shielded h =>
      obtain ⟨front, back, rfl, hfront, hback⟩ := ih h
      exact ⟨_ :: _ :: front, back, rfl, .shielded hfront, hback⟩
    | fixed hc h =>
      obtain ⟨front, back, rfl, hfront, hback⟩ := ih h
      exact ⟨_ :: front, back, rfl, .fixed hc hfront, hback⟩
    | space h =>
      obtain ⟨front, back, rfl, hfront, hback⟩ := ih h
      exact ⟨_ :: front, back, rfl, .space hfront, hback⟩
    | line hb h =>
      obtain ⟨front, back, rfl, hfront, hback⟩ := ih h
      exact ⟨_ :: front, back, rfl, .line hb hfront, hback⟩

theorem ofText_append (s t : Text) : Content.ofText (s ++ t) = .ofText s ++ .ofText t :=
  List.map_append

theorem laid_ofText (is : List Ink) : Laid is (.ofText (inkText is)) := by
  induction is with
  | nil => exact .nil
  | cons i is ih =>
    cases i with
    | plain c => exact .plain rfl ih
    | shielded c => exact .shielded ih
    | fixed c => exact .fixed rfl ih
    | gap => exact .space ih

/-- What markup, code and targets begin with. -/
def isOpener (c : Char) : Bool := "*\x60[]<!\x22".toList.contains c

/-- Wherever inks of markup begin, there is an opener; `within` tells that such an ink stands
before. -/
def Led (within : Bool) : List Ink → Prop
  | [] => True
  | .fixed c :: is => (within = false → isOpener c = true) ∧ Led true is
  | _ :: is => Led false is

theorem Led.weaken {is : List Ink} (h : Led false is) (within : Bool) : Led within is := by
  cases is with
  | nil => trivial
  | cons i is =>
    cases i with
    | fixed c => exact ⟨fun _ => h.1 rfl, h.2⟩
    | _ => exact h

theorem Led.append {within : Bool} {is js : List Ink} (h : Led within is) (h' : Led false js) :
    Led within (is ++ js) := by
  induction is generalizing within with
  | nil => exact h'.weaken within
  | cons i is ih =>
    cases i with
    | fixed c => exact ⟨h.1, ih h.2⟩
    | _ => exact ih h

theorem led_of_not_fixed {is : List Ink} (h : ∀ c, .fixed c ∉ is) : Led false is := by
  induction is with
  | nil => trivial
  | cons i is ih =>
    have hrest : Led false is := ih fun c hc => h c (List.mem_cons_of_mem i hc)
    cases i with
    | fixed c => exact absurd List.mem_cons_self (h c)
    | _ => exact hrest

theorem led_fixedInks {t : Text} (h : ∀ c ∈ t.head?, isOpener c = true) : Led false (fixedInks t) := by
  have hwithin : ∀ t : Text, Led true (fixedInks t) := by
    intro t
    induction t with
    | nil => trivial
    | cons c t ih => exact ⟨nofun, ih⟩
  cases t with
  | nil => trivial
  | cons c t => exact ⟨fun _ => h c rfl, hwithin t⟩

theorem Led.behind {is js : List Ink} (h : Led false (is ++ js))
    (hplain : ∀ c ∈ inkText is, isOpener c = false) : Led false js := by
  induction is with
  | nil => exact h
  | cons i is ih =>
    have hrest : ∀ c ∈ inkText is, isOpener c = false := fun c hc =>
      hplain c (List.mem_append_right _ hc)
    cases i with
    | fixed c =>
      have hopener := h.1 rfl
      have hno := hplain c (List.mem_append_left _ (List.mem_singleton_self c))
      rw [hno] at hopener
      cases hopener
    | _ => exact ih h hrest

theorem not_opener_of_isDigit {c : Char} (h : Text.isDigit c = true) : isOpener c = false := by
  have hall : "*\x60[]<!\x22".toList.all (!Text.isDigit ·) = true := by decide
  rw [isOpener, Bool.eq_false_iff]
  intro hc
  have hno := List.all_eq_true.mp hall c (List.contains_iff_mem.mp hc)
  rw [h] at hno
  cases hno

theorem not_opener_of_isStarter {c : Char} (h : isStarter c = true) : isOpener c = false := by
  have hall : "*\x60[]<!\x22".toList.all (!isStarter ·) = true := by decide
  rw [isOpener, Bool.eq_false_iff]
  intro hc
  have hno := List.all_eq_true.mp hall c (List.contains_iff_mem.mp hc)
  rw [h] at hno
  cases hno

theorem ordered_ink {w : List Ink} (hled : Led false w) {digits : Text} {d : Char}
    (hw : inkText w = digits ++ [d]) (hd : d = '.' ∨ d = ')')
    (hdigits : ∀ c ∈ digits, Text.isDigit c = true) :
    ∃ v, w = v ++ [.plain d] ∧ inkText v = digits := by
  rcases w.eq_nil_or_concat with rfl | ⟨v, i, hconcat⟩
  · simp [inkText] at hw
  rw [List.concat_eq_append] at hconcat
  subst hconcat
  have hlast : inkText v ++ i.text = digits ++ [d] := by
    rw [← hw, Layout.inkText_append]
    simp [inkText]
  cases i with
  | plain c =>
    obtain ⟨hv, hc⟩ := List.append_inj' hlast rfl
    obtain rfl : c = d := by simpa [Ink.text] using hc
    exact ⟨v, rfl, hv⟩
  | shielded c =>
    have hslash : (inkText v ++ ['\\']) ++ [c] = digits ++ [d] := by simpa [Ink.text] using hlast
    have hmem : '\\' ∈ digits := by
      rw [← (List.append_inj' hslash rfl).1]
      simp
    exact absurd (hdigits _ hmem) (by decide)
  | fixed c =>
    obtain ⟨hv, hc⟩ := List.append_inj' hlast rfl
    obtain rfl : c = d := by simpa [Ink.text] using hc
    have hplain : ∀ e ∈ inkText v, isOpener e = false := by
      intro e he
      rw [hv] at he
      exact not_opener_of_isDigit (hdigits e he)
    have hfixed : (false = false → isOpener c = true) ∧ Led true [] := hled.behind hplain
    have hopener := hfixed.1 rfl
    rcases hd with rfl | rfl <;> cases hopener
  | gap =>
    obtain ⟨-, hc⟩ := List.append_inj' hlast rfl
    obtain rfl : ' ' = d := by simpa [Ink.text] using hc
    simp at hd

theorem laid_escapeLineStart {w : List Ink} (hled : Led false w) :
    Laid w (.ofText (escapeLineStart (inkText w))) := by
  by_cases hordered : isOrderedMarker (inkText w) = true
  · obtain ⟨digits, d, hw, hd, hdigits, -⟩ := orderedMarker_parts hordered
    obtain ⟨v, rfl, hv⟩ := ordered_ink hled hw hd hdigits
    have hpunctuation : Text.isAsciiPunctuation d = true := by
      rcases hd with rfl | rfl <;> decide
    have hescaped : escapeLineStart (inkText (v ++ [.plain d])) = inkText v ++ ['\\', d] := by
      rw [escapeLineStart, if_pos hordered, hw, List.dropLast_concat, List.getLast?_concat, hv]
      rfl
    rw [hescaped, ofText_append]
    exact (laid_ofText v).append (.slashed hpunctuation .nil)
  · by_cases hleading : isLeadingMarker (inkText w) = true
    · obtain ⟨c, after, hw, hc⟩ := isLeadingMarker_first hleading
      have hescaped : escapeLineStart (inkText w) = '\\' :: inkText w := by
        rw [escapeLineStart, if_neg hordered, if_pos hleading]
      rw [hescaped]
      cases w with
      | nil => cases hw
      | cons i w =>
        have hfirst : i.text ++ inkText w = c :: after := hw
        cases i with
        | plain d =>
          obtain rfl : d = c := (List.cons.inj hfirst).1
          exact .slashed (isAsciiPunctuation_of_isStarter hc) (laid_ofText w)
        | shielded d =>
          obtain rfl : '\\' = c := (List.cons.inj hfirst).1
          cases hc
        | fixed d =>
          obtain rfl : d = c := (List.cons.inj hfirst).1
          have hopener := hled.1 rfl
          rw [not_opener_of_isStarter hc] at hopener
          cases hopener
        | gap =>
          obtain rfl : ' ' = c := (List.cons.inj hfirst).1
          cases hc
    · rw [escapeLineStart, if_neg hordered, if_neg hleading]
      exact laid_ofText w

theorem led_words {is : List Ink} {within : Bool} (h : Led within is) :
    (∀ w ∈ (words is).head?, Led within w) ∧ ∀ w ∈ (words is).tail, Led false w := by
  induction is generalizing within with
  | nil => exact ⟨by simp [words, Led], by simp [words]⟩
  | cons i is ih =>
    by_cases hi : i = .gap
    · subst hi
      obtain ⟨hhead, htail⟩ := @ih false h
      refine ⟨by simp [words, Led], ?_⟩
      intro w hw
      obtain ⟨v, vs, hv⟩ := List.exists_cons_of_ne_nil (Layout.words_ne_nil is)
      rw [words, List.tail_cons, hv] at hw
      rw [hv] at hhead htail
      rcases List.mem_cons.mp hw with rfl | hw
      · exact hhead w rfl
      · exact htail w hw
    · obtain ⟨v, vs, hv⟩ := List.exists_cons_of_ne_nil (Layout.words_ne_nil is)
      rw [Layout.words_cons hi hv]
      rw [hv] at ih
      cases i with
      | gap => exact absurd rfl hi
      | fixed c =>
        obtain ⟨hhead, htail⟩ := ih h.2
        refine ⟨?_, htail⟩
        rintro w ⟨⟩
        exact ⟨h.1, hhead v rfl⟩
      | plain c =>
        obtain ⟨hhead, htail⟩ := @ih false h
        refine ⟨?_, htail⟩
        rintro w ⟨⟩
        exact hhead v rfl
      | shielded c =>
        obtain ⟨hhead, htail⟩ := @ih false h
        refine ⟨?_, htail⟩
        rintro w ⟨⟩
        exact hhead v rfl

theorem Led.word {is : List Ink} (h : Led false is) {w : List Ink} (hw : w ∈ words is) :
    Led false w := by
  obtain ⟨v, vs, hv⟩ := List.exists_cons_of_ne_nil (Layout.words_ne_nil is)
  obtain ⟨hhead, htail⟩ := led_words h
  rw [hv] at hw hhead htail
  rcases List.mem_cons.mp hw with rfl | hw
  · exact hhead w rfl
  · exact htail w hw

theorem laid_spacedTail (ws : List (List Ink)) {is : List Ink} {t : Content} (h : Laid is t) :
    Laid (joined (is :: ws)) (t ++ Content.ofText (spacedTail (ws.map inkText))) := by
  induction ws generalizing is t with
  | nil =>
    rw [List.map_nil, Layout.spacedTail_nil]
    simpa [joined, Content.ofText] using h
  | cons w ws ih =>
    rw [Layout.joined_cons is (by simp), List.map_cons, Layout.spacedTail_cons, ofText_append]
    have hrest := ih (laid_ofText w)
    have hword : Content.ofText (' ' :: inkText w) = .char ' ' :: Content.ofText (inkText w) := rfl
    rw [hword, List.cons_append]
    exact h.append (.space hrest)

theorem laid_lineBody {g : List (List Ink)} (hne : g ≠ []) (hled : ∀ w ∈ g, Led false w) :
    Laid (joined g) (.ofText (lineBody (g.map inkText))) := by
  obtain ⟨w, ws, rfl⟩ := List.exists_cons_of_ne_nil hne
  rw [List.map_cons, lineBody, ofText_append]
  exact laid_spacedTail ws (laid_escapeLineStart (hled w (by simp)))

theorem joined_append {ws vs : List (List Ink)} (hws : ws ≠ []) (hvs : vs ≠ []) :
    joined (ws ++ vs) = joined ws ++ .gap :: joined vs := by
  induction ws with
  | nil => exact absurd rfl hws
  | cons w ws ih =>
    by_cases hrest : ws = []
    · subst hrest
      exact Layout.joined_cons w hvs
    · rw [List.cons_append, Layout.joined_cons w (by simp [hrest]), ih hrest,
        Layout.joined_cons w hrest, List.append_assoc, List.cons_append]

theorem laid_spreads {gs : List (List (List Ink))} (hne : ∀ g ∈ gs, g ≠ [])
    (hled : ∀ g ∈ gs, ∀ w ∈ g, Led false w) {content : Content}
    (h : Spreads (gs.map fun g => lineBody (g.map inkText)) content) :
    Laid (joined gs.flatten) content := by
  induction gs generalizing content with
  | nil => cases h
  | cons g gs ih =>
    have hg := laid_lineBody (hne g (by simp)) (hled g (by simp))
    rw [List.map_cons] at h
    generalize hlines : (gs.map fun g => lineBody (g.map inkText)) = lines at h
    cases h with
    | one =>
      have hnil : gs = [] := List.map_eq_nil_iff.mp hlines
      subst hnil
      simpa using hg
    | more t b hb _ hrest =>
      rw [← hlines] at hrest
      have hgs : gs ≠ [] := by
        rintro rfl
        cases hrest
      have hflat : gs.flatten ≠ [] := by
        obtain ⟨k, ks, rfl⟩ := List.exists_cons_of_ne_nil hgs
        simp [hne k (by simp)]
      rw [List.flatten_cons, joined_append (hne g (by simp)) hflat]
      exact hg.append (.line hb (ih (fun k hk => hne k (by simp [hk]))
        (fun k hk => hled k (by simp [hk])) hrest))

/-- A partition of what words say is one of the words. -/
theorem exists_groups {gs : List (List Text)} {ws : List (List Ink)}
    (h : gs.flatten = ws.map inkText) :
    ∃ ks : List (List (List Ink)), ks.flatten = ws ∧ gs = ks.map (·.map inkText) := by
  induction gs generalizing ws with
  | nil =>
    obtain rfl : ws = [] := List.map_eq_nil_iff.mp h.symm
    exact ⟨[], rfl, rfl⟩
  | cons g gs ih =>
    obtain ⟨k, rest, rfl, rfl, hrest⟩ := List.map_eq_append_iff.mp h.symm
    obtain ⟨ks, rfl, rfl⟩ := ih hrest.symm
    exact ⟨k :: ks, rfl, rfl⟩

/-- The filled lines of a run, read as content, are laid with its inks. -/
theorem laid_cut {is : List Ink} (heven : Evened is) (hled : Led false is) (cols : Nat)
    (margin : Layout.Margin) {content : Content}
    (h : Spreads ((cut cols margin (Layout.tokens (Layout.inkMarks is))).map lineBody) content) :
    Laid is content := by
  rw [heven.tokens_eq] at h
  have hflat := Layout.cut_flatten cols margin ((words is).map inkText)
  have hnonempty := Layout.cut_nonempty cols margin ((words is).map inkText)
  obtain ⟨ks, hks, hcut⟩ := exists_groups hflat
  rw [hcut] at h hnonempty
  rw [List.map_map] at h
  have hne : ∀ k ∈ ks, k ≠ [] := by
    intro k hk hnil
    exact hnonempty (k.map inkText) (List.mem_map_of_mem hk) (by rw [hnil, List.map_nil])
  have hwords : ∀ k ∈ ks, ∀ w ∈ k, Led false w := by
    intro k hk w hw
    refine hled.word ?_
    rw [← hks]
    exact List.mem_flatten.mpr ⟨k, hk, hw⟩
  have hlaid := laid_spreads hne hwords h
  rwa [hks, Layout.joined_words] at hlaid

end CanonMark.Markdown
