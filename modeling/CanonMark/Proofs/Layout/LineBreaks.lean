import CanonMark.Format
import CanonMark.Proofs.Layout.Autolinks
import CanonMark.Proofs.Layout.Flattening
import CanonMark.Proofs.Layout.Greedy

/-! # Line feeds in inline markup

Texts, code, emphasis and descriptions of images are written on one line, whatever line feeds they
hold. Destinations and titles are written with their line feeds, which no margin follows. They are
the only ones in the markup of a run.
-/
namespace CanonMark.Layout

mutual
/-- The destinations and titles that the markup of a node holds. -/
def targets : Node → List Text
  | .mk (.link destination title) _ cs => destination :: title :: targetsAll cs
  | .mk (.image destination title) _ _ => [destination, title]
  | _ => []

def targetsAll : List Node → List Text
  | [] => []
  | n :: ns => targets n ++ targetsAll ns
end

def markBreaks (ms : List Mark) : Nat := (ms.map Mark.char).count '\n'

theorem markBreaks_append (ms ns : List Mark) :
    markBreaks (ms ++ ns) = markBreaks ms + markBreaks ns := by
  simp [markBreaks]

theorem innerBreaks_eq_zero {ts : List Text} : innerBreaks ts = 0 ↔ ∀ t ∈ ts, '\n' ∉ t := by
  simp [innerBreaks, List.count_eq_zero]

@[simp] theorem innerBreaks_cons (t : Text) (ts : List Text) :
    innerBreaks (t :: ts) = t.count '\n' + innerBreaks ts := by
  simp [innerBreaks]

theorem count_replace {c x : Char} (hc : c ≠ x) {by_ : Text} (hby : x ∉ by_) (t : Text) :
    (Text.replace c by_ t).count x = t.count x := by
  induction t with
  | nil => rfl
  | cons d t ih =>
    have hstep : Text.replace c by_ (d :: t) =
        (if d = c then by_ else [d]) ++ Text.replace c by_ t := rfl
    rw [hstep, List.count_append, ih]
    by_cases hd : d = c
    · rw [if_pos hd, List.count_eq_zero.mpr hby, hd, List.count_cons_of_ne hc, Nat.zero_add]
    · rw [if_neg hd, ← List.count_append, List.singleton_append]

theorem count_newline_linkDestination (destination : Text) :
    (linkDestination destination).count '\n' = destination.count '\n' := by
  have hdoubled : (Text.replace '\\' "\\\\".toList destination).count '\n' =
      destination.count '\n' := count_replace (by decide) (by decide) destination
  simp only [linkDestination]
  split
  · rw [List.count_cons_of_ne (by decide), List.count_append, count_replace (by decide) (by decide),
      count_replace (by decide) (by decide), hdoubled]
    rfl
  · exact hdoubled

theorem count_newline_linkTitle (title : Text) :
    (linkTitle title).count '\n' = title.count '\n' := by
  rw [linkTitle]
  split
  · next h => rw [List.isEmpty_iff.mp h]
  · rw [List.count_cons_of_ne (by decide), List.count_cons_of_ne (by decide), List.count_append,
      count_replace (by decide) (by decide), count_replace (by decide) (by decide)]
    rfl

theorem markBreaks_linkTail (destination title : Text) :
    markBreaks (linkTail destination title) = innerBreaks [destination, title] := by
  simp [markBreaks, linkTail, count_newline_linkDestination, count_newline_linkTitle, innerBreaks]

theorem newline_not_mem_escapeFrom (prev : Option Char) {t : Text} (h : '\n' ∉ t) :
    '\n' ∉ escapeFrom prev t :=
  not_mem_escapeFrom (by decide) prev h

theorem newline_not_mem_shieldBang (beforeLink : Bool) {t : Text} (h : '\n' ∉ t) :
    '\n' ∉ shieldBang beforeLink t := by
  unfold shieldBang
  split
  · have hfront : '\n' ∉ t.dropLast := fun hm => h (List.dropLast_subset t hm)
    simp [hfront]
  · exact h

theorem newline_not_mem_codeSpan (literal : Text) : '\n' ∉ codeSpan literal := by
  have hcontent := newline_not_mem_unbroken literal
  simp only [codeSpan]
  split
  · simp [hcontent]
  · simp [hcontent]

/-- A gap is no line feed, so the tokens hold all that the marks do. -/
theorem innerBreaks_tokens (ms : List Mark) : innerBreaks (tokens ms) = markBreaks ms := by
  rw [innerBreaks, tokens, List.flatten_filter_not_isEmpty, flatten_segments]
  induction ms with
  | nil => rfl
  | cons m ms ih =>
    have hrest : markBreaks (m :: ms) = [m.char].count '\n' + markBreaks ms :=
      markBreaks_append [m] ms
    rw [hrest, ← ih]
    cases m with
    | gap => exact (Nat.zero_add _).symm
    | glyph c =>
      rw [← List.count_append]
      rfl

theorem count_newline_join (words : List Text) :
    (Text.join [' '] words).count '\n' = innerBreaks words := by
  induction words with
  | nil => rfl
  | cons word words ih =>
    cases words with
    | nil => simp [Text.join, innerBreaks]
    | cons next words => simp [Text.join, ih]

theorem markBreaks_linkMarks (destination title : Text) (words : List Text) :
    markBreaks (linkMarks destination title words) =
      innerBreaks [destination, title] + innerBreaks words := by
  rw [linkMarks]
  split
  · -- the words are the destination, which has no line feeds, and there is no title
    next h =>
    rw [Bool.and_eq_true, Bool.and_eq_true, beq_iff_eq, List.isEmpty_iff] at h
    obtain ⟨⟨rfl, hwords⟩, hlink⟩ := h
    have hnone : destination.count '\n' = 0 :=
      List.count_eq_zero.mpr (((isAutolink_iff _).mp hlink).not_mem (.inr rfl))
    have hjoined := count_newline_join words
    rw [hwords, hnone] at hjoined
    simp [markBreaks, innerBreaks, hnone] at hjoined ⊢
    exact hjoined
  · have hwords : markBreaks (spaced words) = innerBreaks words := by
      rw [markBreaks, map_char_spaced, count_newline_join]
    have hbracket : markBreaks (breakable ['[']) = 0 := by decide
    rw [markBreaks_append, markBreaks_append, hwords, markBreaks_linkTail, hbracket]
    omega

theorem markBreaks_delimited {delimiter : Text} (hdelimiter : '\n' ∉ delimiter) {cs : List Node}
    {ms : List Mark} (h : delimited delimiter cs = .ok ms) : markBreaks ms = 0 := by
  rw [delimited] at h
  split at h
  · cases h
  · obtain rfl := Except.ok.inj h
    have hbody := newline_not_mem_escapeFrom none
      (newline_not_mem_flatten (cs.flatMap Node.literal))
    rw [markBreaks, map_char_breakable, List.count_eq_zero]
    simp [hdelimiter, escape, hbody]

mutual
theorem markBreaks_compileNode {beforeLink : Bool} :
    ∀ {n : Node} {ms : List Mark}, compileNode beforeLink n = .ok ms →
      markBreaks ms = innerBreaks (targets n)
  | .mk k l cs, ms, h => by
    cases k with
    | text =>
      obtain rfl := Except.ok.inj h
      rw [textMarks, markBreaks, map_char_breakable]
      exact List.count_eq_zero.mpr (newline_not_mem_shieldBang _
        (newline_not_mem_escapeFrom none (newline_not_mem_unbroken l)))
    | emphasis => exact markBreaks_delimited (by decide) h
    | strong => exact markBreaks_delimited (by decide) h
    | code =>
      obtain rfl := Except.ok.inj h
      rw [markBreaks, map_char_solid]
      exact List.count_eq_zero.mpr (newline_not_mem_codeSpan l)
    | link destination title =>
      obtain ⟨-, inner, hinner, rfl⟩ := compileNode_link_ok h
      rw [markBreaks_linkMarks, innerBreaks_tokens, markBreaks_compile hinner]
      simp [targets, innerBreaks, Nat.add_assoc]
    | image destination title =>
      obtain rfl := Except.ok.inj h
      have halt := newline_not_mem_escapeFrom none (flat_trimFlatten (Node.shownAll cs)).unbroken
      have hfront : markBreaks (breakable "![".toList) = 0 := by decide
      have hdescription : markBreaks (breakable (escape (trimFlatten (Node.shownAll cs)))) = 0 := by
        rw [markBreaks, map_char_breakable]
        exact List.count_eq_zero.mpr halt
      rw [imageMarks, markBreaks_append, markBreaks_append, hfront, hdescription,
        markBreaks_linkTail, Nat.zero_add]
      rfl
    | _ => cases h

theorem markBreaks_compile : ∀ {ns : List Node} {ms : List Mark}, compile ns = .ok ms →
    markBreaks ms = innerBreaks (targetsAll ns)
  | [], ms, h => by
    obtain rfl := Except.ok.inj h
    rfl
  | n :: ns, ms, h => by
    obtain ⟨first, rest, hfirst, hrest, rfl⟩ := compile_cons_ok h
    rw [markBreaks_append, markBreaks_compileNode hfirst, markBreaks_compile hrest, targetsAll,
      innerBreaks_append]
end

theorem count_newline_fill (cols : Nat) {margin : Margin} (hfirst : '\n' ∉ margin.first)
    (hlater : '\n' ∉ margin.later) {ts : List Text} (hts : ∀ t ∈ ts, t ≠ []) :
    (fill cols margin ts).count '\n' = (cut cols margin ts).length + innerBreaks ts := by
  have hflatten := cut_flatten cols margin ts
  rw [fill_eq_unlines cols margin ts hts]
  cases hcut : cut cols margin ts with
  | nil =>
    rw [hcut] at hflatten
    subst hflatten
    rfl
  | cons g gs =>
    rw [hcut] at hflatten
    rw [count_newline_groupLines, hflatten, List.count_eq_zero.mpr hfirst,
      List.count_eq_zero.mpr hlater, List.length_cons]
    omega

theorem count_newline_writeCell (t : Text) (width : Nat) :
    (writeCell (Text.replace '|' "\\|".toList t) width).count '\n' = t.count '\n' := by
  rw [writeCell, List.count_append, List.count_append, count_replace (by decide) (by decide)]
  simp [List.count_replicate]

/-- The markup of a run and its tokens hold exactly the line feeds of the run's destinations and
titles, and so do the cell and, beside the ends of its own lines, the paragraph written from it. -/
theorem inline_breaks_lie_in_targets {ns : List Node} {t : Text} (h : inlineText ns = .ok t) :
    ∃ ts, inlineTokens ns = .ok ts ∧
      t.count '\n' = innerBreaks (targetsAll ns) ∧ innerBreaks ts = innerBreaks (targetsAll ns) ∧
      (('\n' ∉ t ∧ ∀ w ∈ ts, '\n' ∉ w) ↔ ∀ d ∈ targetsAll ns, '\n' ∉ d) ∧
      (∀ cols margin, '\n' ∉ margin.first → '\n' ∉ margin.later →
        (fill cols margin ts).count '\n' =
          (cut cols margin ts).length + innerBreaks (targetsAll ns)) ∧
      ∀ width, (writeCell (Text.replace '|' "\\|".toList t) width).count '\n' =
        innerBreaks (targetsAll ns) := by
  cases hms : compile ns with
  | error e =>
    rw [inlineText, hms] at h
    cases h
  | ok ms =>
    rw [inlineText, hms] at h
    obtain rfl := Except.ok.inj h
    have htext : (ms.map Mark.char).count '\n' = innerBreaks (targetsAll ns) :=
      markBreaks_compile hms
    have htokens : innerBreaks (tokens ms) = innerBreaks (targetsAll ns) := by
      rw [innerBreaks_tokens, markBreaks_compile hms]
    refine ⟨tokens ms, by rw [inlineTokens, hms]; rfl, htext, htokens, ?_, ?_, ?_⟩
    · rw [← List.count_eq_zero, ← innerBreaks_eq_zero, ← innerBreaks_eq_zero, htext, htokens]
      exact and_self_iff
    · intro cols margin hfirst hlater
      rw [count_newline_fill cols hfirst hlater tokens_ne_nil, htokens]
    · intro width
      rw [count_newline_writeCell, htext]

/-- A link in the text of which every line feed is written as a space, with one in its title. -/
def titledLink : List Node :=
  [.ofText "see\n".toList,
    .branch (.link "b".toList "x\ny".toList) [.ofText "a\nc".toList]]

theorem inline_breaks_lie_in_targets_titledLink :
    inlineText titledLink = .ok "see [a c](b \x22x\ny\x22)".toList ∧
      innerBreaks (targetsAll titledLink) = 1 ∧
      ∃ ts, inlineTokens titledLink = .ok ts ∧ innerBreaks ts = 1 ∧
        (fill 80 ⟨"> ".toList, "> ".toList⟩ ts).count '\n' =
          (cut 80 ⟨"> ".toList, "> ".toList⟩ ts).length + 1 := by
  have htext : inlineText titledLink = .ok "see [a c](b \x22x\ny\x22)".toList := by decide
  have hbreaks : innerBreaks (targetsAll titledLink) = 1 := by decide
  obtain ⟨ts, htokens, -, hinner, -, hfill, -⟩ := inline_breaks_lie_in_targets htext
  rw [hbreaks] at hinner hfill
  exact ⟨htext, hbreaks, ts, htokens, hinner, hfill 80 _ (by decide) (by decide)⟩

/-- A title over two lines, of which the second is indented so that it opens no block. It is written
without the indentation, and the second line is read as a heading. -/
theorem format_breaks_title :
    format ⟨80⟩ "[a](b \x22x\n    # y\x22)\n".toList = .ok "[a](b \x22x\n# y\x22)\n".toList ∧
      Markdown.parse "[a](b \x22x\n    # y\x22)\n".toList =
        .branch .document [.branch .paragraph
          [.branch (.link "b".toList "x\n# y".toList) [.ofText "a".toList]]] ∧
      Markdown.parse "[a](b \x22x\n# y\x22)\n".toList =
        .branch .document [.branch .paragraph [.ofText "[a](b \x22x".toList],
          .branch (.heading 1) [.ofText "y\x22)".toList]] := by
  refine ⟨?_, ?_, ?_⟩
  · decide +kernel
  · decide +kernel
  · decide +kernel

end CanonMark.Layout
