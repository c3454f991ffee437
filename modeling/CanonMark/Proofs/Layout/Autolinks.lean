import CanonMark.Format
import CanonMark.Proofs.Layout.Cells
import CanonMark.Proofs.Layout.Escaping
import CanonMark.Proofs.Layout.Strokes

/-! # Autolinks

A link is written in angle brackets if its destination is what its text was compiled to, not what
its text is. A text that says the destination is compiled to it only if nothing in it is escaped,
and other nodes can be compiled to it as well, since their markup is compared too. Main statement:
which links are written so, and when these are those of which the text is the destination.
-/
namespace CanonMark.Layout

def isSchemeChar (c : Char) : Bool := Text.isLetterOrDigit c || c == '+' || c == '.' || c == '-'

/-- What may stand between the angle brackets of an autolink. -/
inductive AutolinkForm : Text → Prop where
  | mk {c : Char} {scheme rest : Text} : Text.isLetter c = true → 1 ≤ scheme.length →
      scheme.length ≤ 31 → (∀ x ∈ scheme, isSchemeChar x = true) →
      (∀ x ∈ rest, Text.isBlank x = false ∧ x ≠ '<' ∧ x ≠ '>') →
      AutolinkForm (c :: scheme ++ ':' :: rest)

theorem isAutolink_iff (d : Text) : isAutolink d = true ↔ AutolinkForm d := by
  constructor
  · intro h
    cases d with
    | nil => cases h
    | cons c t =>
      simp only [isAutolink, Bool.and_eq_true, decide_eq_true_eq] at h
      obtain ⟨⟨⟨hletter, hleast⟩, hmost⟩, hrest⟩ := h
      have hsplit := List.prefix_iff_eq_append.mp (List.takeWhile_prefix (l := t) isSchemeChar)
      split at hrest
      · next rest hdrop =>
        have hdrop' : t.drop (t.takeWhile isSchemeChar).length = ':' :: rest := hdrop
        rw [← hsplit, hdrop', ← List.cons_append]
        refine .mk hletter hleast hmost (fun x hx => List.mem_takeWhile_imp hx) fun x hx => ?_
        simpa [and_assoc] using List.all_eq_true.mp hrest x hx
      · cases hrest
  · rintro ⟨hletter, hleast, hmost, hscheme, hrest⟩
    next c scheme rest =>
    have htake : (scheme ++ ':' :: rest).takeWhile isSchemeChar = scheme := by
      rw [List.takeWhile_append_of_pos hscheme, List.takeWhile_cons_of_neg (by decide),
        List.append_nil]
    have htake' : (scheme ++ ':' :: rest).takeWhile (fun d =>
        Text.isLetterOrDigit d || d == '+' || d == '.' || d == '-') = scheme := htake
    rw [List.cons_append, isAutolink]
    simp only [htake', List.drop_left, hletter, hleast, hmost, decide_true, Bool.and_self,
      Bool.true_and]
    rw [List.all_eq_true]
    intro x hx
    simpa [and_assoc] using hrest x hx

theorem AutolinkForm.not_mem {d : Text} (h : AutolinkForm d) {x : Char} (hx : x = ' ' ∨ x = '\n') :
    x ∉ d := by
  cases h with
  | @mk c scheme rest hletter _ _ hscheme hrest =>
    have hother : Text.isLetter x = false ∧ isSchemeChar x = false ∧ x ≠ ':' ∧
        Text.isBlank x = true := by rcases hx with rfl | rfl <;> decide
    obtain ⟨hl, hs, hcolon, hb⟩ := hother
    simp only [List.cons_append, List.mem_cons, List.mem_append, not_or]
    refine ⟨?_, ?_, hcolon, ?_⟩
    · rintro rfl
      rw [hletter] at hl
      cases hl
    · intro hmem
      rw [hscheme x hmem] at hs
      cases hs
    · intro hmem
      rw [(hrest x hmem).1] at hb
      cases hb

theorem AutolinkForm.ne_nil {d : Text} (h : AutolinkForm d) : d ≠ [] := by
  cases h
  simp

/-- Words joined by spaces make a word without spaces only if they are that word. -/
theorem join_eq_iff {d : Text} (hne : d ≠ []) (hspace : ' ' ∉ d) (words : List Text) :
    Text.join [' '] words = d ↔ words = [d] := by
  constructor
  · rintro rfl
    match words with
    | [] => exact absurd rfl hne
    | [word] => rfl
    | word :: next :: words => simp [Text.join] at hspace
  · rintro rfl
    rfl

theorem linkMarks_eq (d t : Text) (words : List Text) :
    (linkMarks d t words = solid ('<' :: d ++ ['>']) ↔ t = [] ∧ AutolinkForm d ∧ words = [d]) ∧
      (linkMarks d t words ≠ solid ('<' :: d ++ ['>']) →
        linkMarks d t words = breakable ['['] ++ spaced words ++ linkTail d t) := by
  have hguard : (t.isEmpty && Text.join [' '] words == d && isAutolink d) = true ↔
      t = [] ∧ AutolinkForm d ∧ words = [d] := by
    rw [Bool.and_eq_true, Bool.and_eq_true, List.isEmpty_iff, beq_iff_eq, isAutolink_iff, and_assoc]
    refine and_congr_right fun _ => ?_
    rw [and_comm]
    refine and_congr_right fun hd => join_eq_iff hd.ne_nil (hd.not_mem (.inl rfl)) words
  rw [← hguard, linkMarks]
  split
  · next h => simp [h]
  · next h => simp [h, breakable, solid]

theorem collapse_of_not_mem {t : Text} (h : ' ' ∉ collapse t) : collapse t = t := by
  induction t with
  | nil => rfl
  | cons c t ih =>
    rw [collapse] at h ⊢
    split
    · next hc =>
      rw [if_pos hc] at h
      exact absurd (List.mem_of_mem_head? (by rw [head?_collapse, hc.2]; rfl)) h
    · next hc =>
      rw [if_neg hc, List.mem_cons, not_or] at h
      rw [ih h.2]

theorem collapseGaps_breakable (t : Text) : collapseGaps (breakable t) = breakable (collapse t) := by
  induction t with
  | nil => rfl
  | cons c t ih =>
    have hcons (u : Text) :
        breakable (c :: u) = (if c = ' ' then .gap else .glyph c) :: breakable u := rfl
    have hhead : (breakable t).head? = some .gap ↔ t.head? = some ' ' := by
      cases t with
      | nil => simp [breakable]
      | cons d t => by_cases hd : d = ' ' <;> simp [breakable, hd]
    have hgap : (if c = ' ' then Mark.gap else .glyph c) = .gap ↔ c = ' ' := by
      by_cases hc : c = ' ' <;> simp [hc]
    rw [hcons, collapseGaps, collapse, ih]
    simp only [hhead, hgap]
    split
    · rfl
    · exact (hcons _).symm

theorem squeezed_breakable (t : Text) :
    squeezed (breakable t) = breakable (collapse (trimSpaces t)) := by
  have hmark : (fun m : Mark => m == .gap) ∘ (fun c => if c = ' ' then Mark.gap else .glyph c) =
      (· == ' ') := by
    funext c
    by_cases hc : c = ' ' <;> simp [hc]
  have hleft (u : Text) : (breakable u).dropWhile (· == .gap) = breakable (u.dropWhile (· == ' ')) := by
    rw [breakable, List.dropWhile_map, hmark]
    rfl
  have hright (u : Text) :
      (breakable u).rdropWhile (· == .gap) = breakable (u.rdropWhile (· == ' ')) := by
    rw [List.rdropWhile, breakable, ← List.map_reverse, List.dropWhile_map, hmark, ← List.map_reverse]
    rfl
  rw [squeezed, hleft, hright, collapseGaps_breakable, trimSpaces]

theorem trimSpaces_of_not_mem {t : Text} (h : ' ' ∉ t) : trimSpaces t = t := by
  have hfirst : t.dropWhile (· == ' ') = t := by
    cases t with
    | nil => rfl
    | cons c t => exact List.dropWhile_cons_of_neg (by simpa using Ne.symm (List.ne_of_not_mem_cons h))
  rw [trimSpaces, hfirst, List.rdropWhile_eq_self_iff]
  intro hne hlast
  exact h (beq_iff_eq.mp hlast ▸ List.getLast_mem hne)

theorem tokens_breakable_iff {d : Text} (hne : d ≠ []) (hspace : ' ' ∉ d) (t : Text) :
    tokens (breakable t) = [d] ↔ trimSpaces t = d := by
  have hjoin : Text.join [' '] (tokens (breakable t)) = collapse (trimSpaces t) := by
    rw [← map_char_spaced, spaced_tokens, squeezed_breakable, map_char_breakable]
  rw [← join_eq_iff hne hspace, hjoin]
  constructor
  · intro h
    rw [← h, collapse_of_not_mem]
    rwa [h]
  · rintro rfl
    exact collapse_of_not_mem fun h => hspace (mem_of_mem_collapse h)

def compiledSigns : Text := ['\\', '*', '\x60', '[']

theorem star_mem_delimited {delimiter : Text} (hstar : '*' ∈ delimiter) {cs : List Node}
    {ms : List Mark} (h : delimited delimiter cs = .ok ms) : Mark.glyph '*' ∈ ms := by
  rw [delimited] at h
  split at h
  · cases h
  · obtain rfl := Except.ok.inj h
    exact glyph_mem_breakable (by decide) (by simp [hstar])

theorem tick_mem_codeSpan (l : Text) : '\x60' ∈ codeSpan l := by
  simp only [codeSpan, List.replicate_succ]
  split <;> simp

theorem text_of_compileNode {n : Node} {ms : List Mark} (h : compileNode false n = .ok ms)
    (hlink : n.kind.isLink = false) (hsigns : ∀ c ∈ compiledSigns, Mark.glyph c ∉ ms) :
    n.isText = true ∧ escape (unbroken n.literal) = unbroken n.literal := by
  obtain ⟨k, l, cs⟩ := n
  cases k with
  | text =>
    obtain rfl := Except.ok.inj h
    refine ⟨rfl, escapeFrom_of_not_mem fun hmem => ?_⟩
    exact hsigns '\\' (by decide) (glyph_mem_breakable (by decide) hmem)
  | emphasis => exact absurd (star_mem_delimited (by decide) h) (hsigns '*' (by decide))
  | strong => exact absurd (star_mem_delimited (by decide) h) (hsigns '*' (by decide))
  | code =>
    obtain rfl := Except.ok.inj h
    exact absurd (glyph_mem_solid (tick_mem_codeSpan l)) (hsigns '\x60' (by decide))
  | image destination title =>
    obtain rfl := Except.ok.inj h
    exact absurd (by simp [imageMarks, breakable]) (hsigns '[' (by decide))
  | link destination title => cases hlink
  | _ => cases h

theorem texts_of_compile {cs : List Node} {ms : List Mark} (h : compile cs = .ok ms)
    (hlink : cs.any (·.kind.isLink) = false) (hsigns : ∀ c ∈ compiledSigns, Mark.glyph c ∉ ms) :
    ∀ n ∈ cs, n.isText = true ∧ escape (unbroken n.literal) = unbroken n.literal := by
  induction cs generalizing ms with
  | nil => simp
  | cons n ns ih =>
    rw [List.any_cons, Bool.or_eq_false_iff] at hlink
    have hnext : ns.head?.any (·.kind.isLink) = false := by
      cases ns with
      | nil => rfl
      | cons m ns => exact (Bool.or_eq_false_iff.mp hlink.2).1
    obtain ⟨first, rest, hfirst, hrest, rfl⟩ := compile_cons_ok h
    rw [hnext] at hfirst
    have htext := text_of_compileNode hfirst hlink.1 fun c hc hmem =>
      hsigns c hc (List.mem_append_left _ hmem)
    have htexts := ih hrest hlink.2 fun c hc hmem => hsigns c hc (List.mem_append_right _ hmem)
    exact List.forall_mem_cons.mpr ⟨htext, htexts⟩

theorem compile_texts {cs : List Node}
    (h : ∀ n ∈ cs, n.isText = true ∧ escape (unbroken n.literal) = unbroken n.literal) :
    compile cs = .ok (breakable (unbroken (cs.flatMap Node.literal))) := by
  induction cs with
  | nil => rfl
  | cons n ns ih =>
    obtain ⟨⟨htext, hplain⟩, hrest⟩ := List.forall_mem_cons.mp h
    obtain ⟨k, l, cs⟩ := n
    obtain rfl : k = .text := by simpa [Node.isText, Node.kind] using htext
    have hnext : ns.head?.any (·.kind.isLink) = false := by
      cases ns with
      | nil => rfl
      | cons m ns =>
        have hm : m.kind = .text := by simpa [Node.isText] using (hrest m (by simp)).1
        simp [hm, Kind.isLink]
    rw [compile, hnext, ih hrest, compileNode, textMarks, shieldBang]
    simp only [Node.literal] at hplain
    simp [hplain, Node.literal, unbroken_append, breakable]

/-- The nodes are texts without anything to escape, and show this and spaces around it. -/
structure ShowsPlainly (cs : List Node) (d : Text) : Prop where
  texts : ∀ n ∈ cs, n.isText = true ∧ escape (unbroken n.literal) = unbroken n.literal
  shown : trimSpaces (unbroken (cs.flatMap Node.literal)) = d

/-- Where nothing in a destination is escaped, it is compiled from texts only. -/
theorem words_eq_iff {cs : List Node} {ms : List Mark} (h : compile cs = .ok ms)
    (hlink : cs.any (·.kind.isLink) = false) {d : Text} (hd : AutolinkForm d) (hplain : escape d = d) :
    tokens ms = [d] ↔ ShowsPlainly cs d := by
  have hword := tokens_breakable_iff hd.ne_nil (hd.not_mem (.inl rfl))
    (unbroken (cs.flatMap Node.literal))
  constructor
  · intro htokens
    have hglyphs : glyphs ms = d := by
      rw [← flatten_segments, ← List.flatten_filter_not_isEmpty]
      simpa [tokens] using congrArg List.flatten htokens
    have hsigns : ∀ c ∈ compiledSigns, Mark.glyph c ∉ ms := by
      intro c hc hmem
      have hin := mem_glyphs hmem
      rw [hglyphs] at hin
      obtain ⟨hslash, hstar, htick, hopen⟩ := not_mem_of_escapeFrom_eq hplain
      simp only [compiledSigns, List.mem_cons, List.not_mem_nil, or_false] at hc
      rcases hc with rfl | rfl | rfl | rfl
      · exact hslash hin
      · exact hstar hin
      · exact htick hin
      · exact hopen hin
    have htexts := texts_of_compile h hlink hsigns
    rw [compile_texts htexts] at h
    obtain rfl := Except.ok.inj h
    exact ⟨htexts, hword.mp htokens⟩
  · rintro ⟨htexts, hshown⟩
    rw [compile_texts htexts] at h
    obtain rfl := Except.ok.inj h
    exact hword.mpr hshown

theorem words_of_text {cs below : List Node} {ms : List Mark} (h : compile cs = .ok ms) {d : Text}
    (hcs : cs = [.mk .text d below]) (hd : AutolinkForm d) : tokens ms = [escape d] := by
  subst hcs
  obtain rfl := Except.ok.inj h
  have hline : unbroken d = d := unbroken_of_not_mem (hd.not_mem (.inr rfl))
  have hne : escape d ≠ [] := by
    have hlength := length_le_escapeFrom none d
    have hpos := List.length_pos_iff.mpr hd.ne_nil
    exact List.length_pos_iff.mp (by rw [escape]; omega)
  have hspace : ' ' ∉ escape d := not_mem_escapeFrom (by decide) none (hd.not_mem (.inl rfl))
  rw [List.append_nil, textMarks, hline]
  exact (tokens_breakable_iff hne hspace _).mpr (trimSpaces_of_not_mem hspace)

/-- A link that can be laid out is written in angle brackets exactly if it has no title and its text
is compiled to its destination, which has the form of an autolink, and with brackets and parentheses
otherwise. A text that says such a destination is compiled to it exactly if nothing in it is
escaped, and then nothing is compiled to it but texts that say it, with spaces around it. -/
theorem link_is_autolink_iff {beforeLink : Bool} {d t l : Text} {cs : List Node} {ms : List Mark}
    (h : compileNode beforeLink (.mk (.link d t) l cs) = .ok ms) :
    ∃ words, inlineTokens cs = .ok words ∧
      (ms = solid ('<' :: d ++ ['>']) ↔ t = [] ∧ AutolinkForm d ∧ words = [d]) ∧
      (ms ≠ solid ('<' :: d ++ ['>']) → ms = breakable ['['] ++ spaced words ++ linkTail d t) ∧
      (AutolinkForm d → ∀ below, cs = [.mk .text d below] → (words = [d] ↔ escape d = d)) ∧
      (AutolinkForm d → escape d = d → (words = [d] ↔ ShowsPlainly cs d)) := by
  obtain ⟨hlink, inner, hcompile, rfl⟩ := compileNode_link_ok h
  obtain ⟨hauto, helse⟩ := linkMarks_eq d t (tokens inner)
  refine ⟨tokens inner, by rw [inlineTokens, hcompile]; rfl, hauto, helse, ?_, ?_⟩
  · intro hd below hcs
    rw [words_of_text hcompile hcs hd]
    simp
  · exact fun hd hplain => words_eq_iff hcompile hlink hd hplain

theorem link_is_autolink_iff_address :
    compileNode false (.branch (.link "http://a.b".toList []) [.ofText "http://a.b".toList]) =
        .ok (solid "<http://a.b>".toList) ∧
      AutolinkForm "http://a.b".toList ∧
      ShowsPlainly [.ofText "http://a.b".toList] "http://a.b".toList := by
  have hmarks : compileNode false
      (.branch (.link "http://a.b".toList []) [.ofText "http://a.b".toList]) =
        .ok (solid "<http://a.b>".toList) := by decide
  obtain ⟨words, -, hauto, -, -, hshows⟩ := link_is_autolink_iff hmarks
  obtain ⟨-, hform, hwords⟩ := hauto.mp rfl
  exact ⟨hmarks, hform, (hshows hform (by decide)).mp hwords⟩

/-- An underscore parts a text from the destination that it says, and emphasis can make a text of
another one. -/
theorem format_mistakes_autolinks :
    Markdown.parse "<http://a.b/_c>\n".toList =
        .branch .document [.branch .paragraph
          [.branch (.link "http://a.b/_c".toList []) [.ofText "http://a.b/_c".toList]]] ∧
      format ⟨80⟩ "<http://a.b/_c>\n".toList =
        .ok "[http://a.b/\\_c](http://a.b/_c)\n".toList ∧
      Markdown.parse "[http://a*b*](http://a*b*)\n".toList =
        .branch .document [.branch .paragraph
          [.branch (.link "http://a*b*".toList [])
            [.ofText "http://a".toList, .branch .emphasis [.ofText "b".toList]]]] ∧
      format ⟨80⟩ "[http://a*b*](http://a*b*)\n".toList = .ok "<http://a*b*>\n".toList := by
  have hplain : Markdown.parse "<http://a.b/_c>\n".toList =
      .branch .document [.branch .paragraph
        [.branch (.link "http://a.b/_c".toList []) [.ofText "http://a.b/_c".toList]]] := by
    decide +kernel
  have hmixed : Markdown.parse "[http://a*b*](http://a*b*)\n".toList =
      .branch .document [.branch .paragraph
        [.branch (.link "http://a*b*".toList [])
          [.ofText "http://a".toList, .branch .emphasis [.ofText "b".toList]]]] := by
    decide +kernel
  refine ⟨hplain, ?_, hmixed, ?_⟩
  · rw [format, hplain]
    decide +kernel
  · rw [format, hmixed]
    decide +kernel

end CanonMark.Layout
