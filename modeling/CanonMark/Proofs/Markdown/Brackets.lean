import CanonMark.Proofs.Layout.Autolinks
import CanonMark.Proofs.Layout.Targets
import CanonMark.Proofs.Markdown.Delimiters

/-! # Links and images read back

A target is read up to the parenthesis that closes it, and makes a link or an image of what stands
behind the nearest bracket. A line may end between its parts, and wherever the title has a space.
Where one ends within the title, another title is read, with a line feed for the space.
-/
namespace CanonMark.Markdown

open Layout (Ink Flat fixedInks textInks tailInks titleInks linkDestination needsBrackets
  isAwkward isBackslash isAngleMark isQuoteMark shielding_isBackslash shielding_isAngleMark
  shielding_isQuoteMark linkDestination_eq AutolinkForm isSchemeChar isBare titleInk unbroken)
open Text (shield Shielding shield_of_pos shield_of_neg holdsReference decode_shield_iff)

theorem separator_stop {s : Symbol} {x : Char} (h : s.char? = some x)
    (hx : Text.isSpacing x = false) (t : Content) : separator (s :: t) = (false, s :: t) := by
  have hdrop : (s :: t).dropWhile Symbol.isSpacing = s :: t :=
    List.dropWhile_cons_of_neg (by simp [symbol_not_spacing h hx])
  rw [separator, hdrop]
  cases s with
  | newline b => cases h
  | _ => rfl

theorem separator_gap {c : Content} (h : Laid [.gap] c) {s : Symbol} {x : Char}
    (hs : s.char? = some x) (hx : Text.isSpacing x = false) (t : Content) :
    (separator (c ++ s :: t)).2 = s :: t := by
  have hdrop : (s :: t).dropWhile Symbol.isSpacing = s :: t :=
    List.dropWhile_cons_of_neg (by simp [symbol_not_spacing hs hx])
  cases h with
  | space h =>
    cases h
    have hstop := separator_stop hs hx t
    have hspace : separator (.char ' ' :: s :: t) = separator (s :: t) := rfl
    exact congrArg Prod.snd (hspace.trans hstop)
  | line hb h =>
    cases h
    exact hdrop

/-- A reader that takes what is escaped with its backslash reads shielded text up to where it
stops. -/
theorem shield_reads {p : Char → Bool} (hp : Shielding p)
    {f : Content → Option (Text × Content)} {d : Text}
    (hslash : ∀ s t, s.isEscapable = true →
      f (.char '\\' :: s :: t) = before ('\\' :: s.char?.toList) <$> f t)
    (hplain : ∀ s, ∀ x ∈ d, ∀ t, s.char? = some x → p x = false →
      f (s :: t) = before [x] <$> f t)
    {stop rest : Content} (hstop : f stop = some ([], rest)) {c : Content}
    (h : Laid (fixedInks (shield p d)) c) : f (c ++ stop) = some (shield p d, rest) := by
  induction d generalizing c with
  | nil =>
    cases h
    exact hstop
  | cons x d ih =>
    have hrest : ∀ s, ∀ x ∈ d, ∀ t, s.char? = some x → p x = false →
        f (s :: t) = before [x] <$> f t :=
      fun s y hy => hplain s y (List.mem_cons_of_mem x hy)
    cases hx : p x with
    | true =>
      rw [shield_of_pos hx] at h ⊢
      cases h with
      | fixed hfirst h =>
        cases h with
        | @fixed _ s _ _ hs h =>
          obtain rfl := symbol_eq hfirst (by decide)
          have hescape : s.isEscapable = true := by
            rw [Symbol.isEscapable, hs]
            exact hp.escapable x hx
          rw [List.cons_append, List.cons_append, hslash _ _ hescape, ih hrest h, hs]
          rfl
    | false =>
      rw [shield_of_neg hx] at h ⊢
      cases h with
      | fixed hs h =>
        rw [List.cons_append, hplain _ x List.mem_cons_self _ hs hx, ih hrest h]
        rfl

theorem bare_reads {d : Text} {c rest : Content} (h : Laid (fixedInks (shield isBackslash d)) c)
    (hd : ∀ x ∈ d, isAwkward x = false ∧ 32 < x.toNat)
    (hrest : bare? 0 rest = some ([], rest)) :
    bare? 0 (c ++ rest) = some (shield isBackslash d, rest) := by
  refine shield_reads shielding_isBackslash ?_ ?_ hrest h
  · intro s t hs
    rw [bare?, if_pos hs]
  · intro s x hx t hs hslash
    obtain ⟨hawkward, hcontrol⟩ := hd x hx
    have hparen : (x == '(') = false ∧ (x == ')') = false := by
      simp only [isAwkward, Bool.or_eq_false_iff] at hawkward
      exact ⟨hawkward.1.1.1.2, hawkward.1.1.2⟩
    have hle : ¬ x.toNat ≤ 32 := by omega
    rw [bare?]
    · simp [hs, hle, hparen]
    · rintro u v rfl
      obtain rfl : '\\' = x := Option.some.inj hs
      cases hslash

theorem bracketed_reads {d : Text} {c : Content} (h : Laid (fixedInks (shield isAngleMark d)) c)
    (rest : Content) :
    bracketed? (c ++ .char '>' :: rest) = some (shield isAngleMark d, rest) := by
  refine shield_reads shielding_isAngleMark ?_ ?_ rfl h
  · intro s t hs
    rw [bracketed?, if_pos hs]
  · intro s x _ t hs hmark
    have hopen : s.test (· == '<') = false := by
      refine symbol_test hs ?_
      simp only [isAngleMark, Bool.or_eq_false_iff] at hmark
      exact hmark.1.2
    rw [bracketed?]
    · rw [symbol_not_newline hs, hopen, hs]
      rfl
    · rintro rfl
      obtain rfl : '>' = x := Option.some.inj hs
      cases hmark
    · rintro u v rfl
      obtain rfl : '\\' = x := Option.some.inj hs
      cases hmark

/-- How a title may stand between its quotes: with a backslash before some of its punctuation,
quotes and backslashes among it, and with line feeds for some of its spaces. -/
inductive Quoted : Text → Text → Prop where
  | nil : Quoted [] []
  | slash {x w t} : Text.isAsciiPunctuation x = true → Quoted w t → Quoted ('\\' :: x :: w) (x :: t)
  | plain {x w t} : isQuoteMark x = false → Quoted w t → Quoted (x :: w) (x :: t)
  | feed {w t} : Quoted w t → Quoted ('\n' :: w) (' ' :: t)

theorem Quoted.front {body u t : Text} (h : Quoted (body ++ u) t)
    (hbody : '\\' ∉ body ∧ '\n' ∉ body) : ∃ v, t = body ++ v ∧ Quoted u v := by
  induction body generalizing t with
  | nil => exact ⟨t, rfl, h⟩
  | cons x body ih =>
    simp only [List.mem_cons, not_or] at hbody
    rw [List.cons_append] at h
    generalize hw : body ++ u = w at h
    cases h with
    | slash _ _ => exact absurd rfl hbody.1.1
    | plain _ h =>
      rw [← hw] at h
      obtain ⟨v, rfl, hv⟩ := ih h ⟨hbody.1.2, hbody.2.2⟩
      exact ⟨v, rfl, hv⟩
    | feed _ => exact absurd rfl hbody.2.1

/-- No reference is read in a quoted title but those that the title holds. -/
theorem Quoted.no_reference {w t : Text} (h : Quoted w t) (ht : Text.Entity.read? t = none) :
    Text.Entity.read? w = none := by
  cases hread : Text.Entity.read? w with
  | none => rfl
  | some found =>
    obtain ⟨meaning, rest⟩ := found
    obtain ⟨body, rfl, hbody, hother⟩ := Layout.reference_of_read hread
    have hchars : '\\' ∉ body ++ [';'] ∧ '\n' ∉ body ++ [';'] := by
      constructor
      · intro hmem
        cases referenceBody_chars hbody _ hmem
      · intro hmem
        cases referenceBody_chars hbody _ hmem
    rw [List.append_cons] at h
    obtain ⟨v, rfl, -⟩ := h.front hchars
    rw [← List.append_cons, hother] at ht
    cases ht

theorem unbroken_cons (x : Char) (t : Text) :
    unbroken (x :: t) = (if x = '\n' then ' ' else x) :: unbroken t := rfl

theorem Quoted.decodeWith {w t : Text} (h : Quoted w t) (ht : holdsReference t = false)
    (hline : '\n' ∉ t) {fuel : Nat} (hfuel : w.length ≤ fuel) :
    unbroken (Text.decodeWith fuel w) = t := by
  induction h generalizing fuel with
  | nil => cases fuel <;> rfl
  | @slash x w t hx _ ih =>
    simp only [holdsReference, Bool.or_eq_false_iff, List.mem_cons, not_or] at ht hline
    simp only [List.length_cons] at hfuel
    obtain ⟨fuel, rfl⟩ := Nat.exists_eq_add_of_le' (show 1 ≤ fuel by omega)
    have hrest := @ih ht.2 hline.2 fuel (by omega)
    rw [Text.decodeWith_escape hx, unbroken_cons, if_neg (Ne.symm hline.1), hrest]
  | @plain x w t hx hquoted ih =>
    simp only [holdsReference, Bool.or_eq_false_iff, List.mem_cons, not_or] at ht hline
    simp only [List.length_cons] at hfuel
    obtain ⟨fuel, rfl⟩ := Nat.exists_eq_add_of_le' (show 1 ≤ fuel by omega)
    have hrest := @ih ht.2 hline.2 fuel (by omega)
    have hdecode : Text.decodeWith (fuel + 1) (x :: w) = x :: Text.decodeWith fuel w := by
      by_cases hsign : x = '&'
      · subst hsign
        have hnone : Text.Entity.read? t = none := by simpa using ht.1
        rw [Text.decodeWith, hquoted.no_reference hnone]
      · refine Text.decodeWith_plain ?_ hsign fuel w
        rintro rfl
        cases hx
    rw [hdecode, unbroken_cons, if_neg (Ne.symm hline.1), hrest]
  | @feed w t _ ih =>
    simp only [holdsReference, Bool.or_eq_false_iff, List.mem_cons, not_or] at ht hline
    simp only [List.length_cons] at hfuel
    obtain ⟨fuel, rfl⟩ := Nat.exists_eq_add_of_le' (show 1 ≤ fuel by omega)
    have hrest := @ih ht.2 hline.2 fuel (by omega)
    rw [Text.decodeWith_plain (by decide) (by decide), unbroken_cons, if_pos rfl, hrest]

theorem titleBody_slash {x : Char} (hx : Text.isAsciiPunctuation x = true) (t : Content) :
    titleBody? '\x22' '\x22' inlineTitleEnd (.char '\\' :: .char x :: t) =
      before ['\\', x] <$> titleBody? '\x22' '\x22' inlineTitleEnd t := by
  have hescape : Symbol.isEscapable (.char x) = true := hx
  rw [titleBody?, if_pos hescape]
  rfl

theorem titleBody_plain {s : Symbol} {x : Char} (hs : s.char? = some x) (hx : isQuoteMark x = false)
    (t : Content) : titleBody? '\x22' '\x22' inlineTitleEnd (s :: t) =
      before [x] <$> titleBody? '\x22' '\x22' inlineTitleEnd t := by
  have hquote : s.test (· == '\x22') = false := by
    refine symbol_test hs ?_
    simp only [isQuoteMark, Bool.or_eq_false_iff] at hx
    exact hx.2
  rw [titleBody?, hquote, hs]
  · rfl
  · rintro u v rfl
    obtain rfl : '\\' = x := Option.some.inj hs
    cases hx
  · rintro b rfl
    cases hs

theorem titleBody_reads {t : Text} {c : Content} (h : Laid (t.map titleInk) c) (rest : Content) :
    ∃ w, Quoted w t ∧
      titleBody? '\x22' '\x22' inlineTitleEnd (c ++ .char '\x22' :: rest) = some (w, rest) := by
  induction t generalizing c with
  | nil =>
    cases h
    exact ⟨[], .nil, rfl⟩
  | cons x t ih =>
    rw [List.map_cons, titleInk] at h
    cases hx : isQuoteMark x with
    | true =>
      rw [if_pos hx] at h
      have hpunctuation := shielding_isQuoteMark.escapable x hx
      cases h with
      | shielded h =>
        obtain ⟨w, hw, hread⟩ := ih h
        refine ⟨'\\' :: x :: w, .slash hpunctuation hw, ?_⟩
        rw [List.cons_append, List.cons_append, titleBody_slash hpunctuation, hread]
        rfl
    | false =>
      rw [if_neg (by simp [hx])] at h
      by_cases hspace : x = ' '
      · subst hspace
        rw [if_pos rfl] at h
        cases h with
        | space h =>
          obtain ⟨w, hw, hread⟩ := ih h
          refine ⟨' ' :: w, .plain rfl hw, ?_⟩
          rw [List.cons_append, titleBody_plain rfl hx, hread]
          rfl
        | line hb h =>
          obtain ⟨w, hw, hread⟩ := ih h
          refine ⟨'\n' :: w, .feed hw, ?_⟩
          rw [List.cons_append, titleBody?, hread, hb]
          rfl
      · rw [if_neg hspace] at h
        cases h with
        | plain hs h =>
          obtain ⟨w, hw, hread⟩ := ih h
          refine ⟨x :: w, .plain hx hw, ?_⟩
          rw [List.cons_append, titleBody_plain hs hx, hread]
          rfl
        | slashed hpunctuation h =>
          obtain ⟨w, hw, hread⟩ := ih h
          refine ⟨'\\' :: x :: w, .slash hpunctuation hw, ?_⟩
          rw [List.cons_append, List.cons_append, titleBody_slash hpunctuation, hread]
          rfl

/-- Whether a destination and a title are read back as themselves, wherever a line is broken between
them. Within the title a break is read as a line feed. -/
def isSteadyTarget (d t : Text) : Bool :=
  !holdsReference d && (needsBrackets d || d.all fun x => 32 < x.toNat) && !holdsReference t &&
    !t.contains '\n'

structure SteadyTarget (d t : Text) : Prop where
  destination : holdsReference d = false
  bare : needsBrackets d = false → ∀ x ∈ d, 32 < x.toNat
  title : holdsReference t = false
  line : '\n' ∉ t

theorem isSteadyTarget_iff (d t : Text) : isSteadyTarget d t = true ↔ SteadyTarget d t := by
  simp only [isSteadyTarget, Bool.and_eq_true, Bool.not_eq_true', Bool.or_eq_true, List.all_eq_true,
    decide_eq_true_eq]
  constructor
  · rintro ⟨⟨⟨hd, hbare⟩, ht⟩, hspace⟩
    refine ⟨hd, fun hneeds => ?_, ht, by simpa using hspace⟩
    rcases hbare with hbare | hbare
    · rw [hneeds] at hbare
      cases hbare
    · exact hbare
  · intro h
    refine ⟨⟨⟨h.destination, ?_⟩, h.title⟩, by simpa using h.line⟩
    cases hneeds : needsBrackets d with
    | true => exact .inl rfl
    | false => exact .inr (h.bare hneeds)

def EndsTarget (t : Content) : Prop := bare? 0 t = some ([], t)

theorem bare_begins {d : Text} (hne : d ≠ []) (hawkward : ∀ x ∈ d, isAwkward x = false)
    (hbare : ∀ x ∈ d, 32 < x.toNat) :
    ∃ x u, shield isBackslash d = x :: u ∧ x ≠ '<' ∧ Text.isSpacing x = false := by
  obtain ⟨x, u, rfl⟩ := List.exists_cons_of_ne_nil hne
  have hhead := hawkward x List.mem_cons_self
  have hcontrol := hbare x List.mem_cons_self
  cases hslash : isBackslash x with
  | true => exact ⟨'\\', x :: shield isBackslash u, shield_of_pos hslash u, by decide, by decide⟩
  | false =>
    refine ⟨x, shield isBackslash u, shield_of_neg hslash u, ?_, ?_⟩
    · rintro rfl
      cases hhead
    · have hall : ∀ y : Char, Text.isSpacing y = true → y.toNat ≤ 32 := by
        intro y hy
        simp only [Text.isSpacing, Bool.or_eq_true, beq_iff_eq] at hy
        rcases hy with ((rfl | rfl) | rfl) | rfl <;> decide
      by_contra hspacing
      have := hall x (by simpa using hspacing)
      omega

theorem destination_reads {d : Text} {c rest : Content} (h : Laid (fixedInks (linkDestination d)) c)
    (hd : holdsReference d = false) (hbare : needsBrackets d = false → ∀ x ∈ d, 32 < x.toNat)
    (hrest : EndsTarget rest) :
    ∃ written, destination? (separator (c ++ rest)).2 = some (written, rest) ∧
      Text.decode written = d := by
  rw [linkDestination_eq] at h
  cases hneeds : needsBrackets d with
  | true =>
    rw [hneeds, if_pos rfl, List.cons_append] at h
    cases h with
    | @fixed _ s _ t hs h =>
      obtain rfl := symbol_eq hs (by decide)
      have hsplit : Laid (fixedInks (shield isAngleMark d) ++ fixedInks ['>']) t := by
        simpa [fixedInks] using h
      obtain ⟨body, closing, rfl, hbody, hclosing⟩ := hsplit.split
      obtain rfl := laid_fixedInks hclosing (by decide)
      refine ⟨shield isAngleMark d, ?_, (decode_shield_iff shielding_isAngleMark d).mpr hd⟩
      have hread := bracketed_reads hbody rest
      rw [List.cons_append, separator_stop rfl (by decide), List.append_assoc]
      exact hread
  | false =>
    rw [hneeds, if_neg (by simp)] at h
    obtain ⟨hne, hawkward⟩ : d ≠ [] ∧ ∀ x ∈ d, isAwkward x = false := by
      simpa [needsBrackets] using hneeds
    have hread := bare_reads h (fun x hx => ⟨hawkward x hx, hbare hneeds x hx⟩) hrest
    refine ⟨shield isBackslash d, ?_, (decode_shield_iff shielding_isBackslash d).mpr hd⟩
    obtain ⟨x, u, hshield, hangle, hspacing⟩ := bare_begins hne hawkward (hbare hneeds)
    rw [hshield] at h
    cases h with
    | @fixed _ s _ t hs h =>
      rw [List.cons_append, separator_stop hs hspacing]
      have hbracket : s ≠ .char '<' := by
        rintro rfl
        exact hangle (Option.some.inj hs).symm
      rw [destination?]
      · exact hread
      · rintro v hv
        exact hbracket (List.cons.inj hv).1

theorem title_reads {t : Text} {c : Content} (h : Laid (titleInks t) c)
    (ht : holdsReference t = false) (hline : '\n' ∉ t) (rest : Content) :
    EndsTarget (c ++ .char ')' :: rest) ∧
      (t = [] ∧ (separator (c ++ .char ')' :: rest)).2 = .char ')' :: rest ∨
        ∃ u, unbroken u = t ∧ title? inlineTitleEnd (separator (c ++ .char ')' :: rest)).2 =
          some (u, .char ')' :: rest)) := by
  by_cases hnil : t = []
  · subst hnil
    cases h
    exact ⟨rfl, .inl ⟨rfl, rfl⟩⟩
  · have hempty : t.isEmpty = false := by simpa using hnil
    have hinks : titleInks t = [.gap] ++ (fixedInks ['\x22'] ++ (t.map titleInk ++
        fixedInks ['\x22'])) := by
      rw [titleInks, hempty, if_neg (by simp)]
      simp [fixedInks]
    rw [hinks] at h
    obtain ⟨gap, quoted, rfl, hgap, hquoted⟩ := h.split
    obtain ⟨opening, inner, rfl, hopening, hinner⟩ := hquoted.split
    obtain ⟨body, closing, rfl, hbody, hclosing⟩ := hinner.split
    obtain rfl := laid_fixedInks hopening (by decide)
    obtain rfl := laid_fixedInks hclosing (by decide)
    obtain ⟨w, hw, hread⟩ := titleBody_reads hbody (.char ')' :: rest)
    have hdecode := hw.decodeWith ht hline (Nat.le_refl _)
    have hcontent : gap ++ (Content.ofText ['\x22'] ++ (body ++ Content.ofText ['\x22'])) ++
        .char ')' :: rest =
          gap ++ .char '\x22' :: (body ++ .char '\x22' :: .char ')' :: rest) := by
      simp [Content.ofText]
    rw [hcontent]
    constructor
    · cases hgap with
      | space hg =>
        cases hg
        rfl
      | line _ hg =>
        cases hg
        rfl
    · refine .inr ⟨Text.decode w, hdecode, ?_⟩
      rw [separator_gap hgap rfl (by decide)]
      simp only [title?, hread, Option.map_some]

theorem target_reads {d t : Text} {c : Content}
    (h : Laid (fixedInks ['('] ++ fixedInks (linkDestination d) ++ titleInks t ++ fixedInks [')']) c)
    (ht : SteadyTarget d t) (rest : Content) :
    ∃ u, unbroken u = t ∧ target? (c ++ rest) = some (d, u, rest) := by
  obtain ⟨front, closing, rfl, hfront, hclosing⟩ := h.split
  obtain ⟨lead, title, rfl, hlead, htitle⟩ := hfront.split
  obtain ⟨opening, destination, rfl, hopening, hdestination⟩ := hlead.split
  obtain rfl := laid_fixedInks hopening (by decide)
  obtain rfl := laid_fixedInks hclosing (by decide)
  obtain ⟨hbehind, hread⟩ := title_reads htitle ht.title ht.line rest
  obtain ⟨written, hwritten, hdecode⟩ :=
    destination_reads hdestination ht.destination ht.bare hbehind
  have hcontent : Content.ofText ['('] ++ destination ++ title ++ Content.ofText [')'] ++ rest =
      .char '(' :: (destination ++ (title ++ .char ')' :: rest)) := by
    simp [Content.ofText]
  have hclose : (separator (.char ')' :: rest)).2 = .char ')' :: rest := rfl
  have hnone : title? inlineTitleEnd (.char ')' :: rest) = none := rfl
  rw [hcontent]
  simp only [target?, hwritten, Option.bind_eq_bind, Option.bind_some, hdecode]
  rcases hread with ⟨rfl, hread⟩ | ⟨u, hu, hread⟩
  · refine ⟨[], rfl, ?_⟩
    simp only [hread, hnone]
  · refine ⟨u, hu, ?_⟩
    simp only [hread, hclose]

theorem lastBracket_found {qs : List Piece} (h : ∀ p ∈ qs, p.complete = true)
    (b : Bool × Bool × Content) (content before : List Piece) :
    lastBracket? content (qs ++ .bracket b.1 b.2.1 b.2.2 :: before) =
      some (qs.reverse ++ content, b, before) := by
  induction qs generalizing content with
  | nil => rfl
  | cons p qs ih =>
    have hrest := ih (fun q hq => h q (List.mem_cons_of_mem p hq)) (p :: content)
    have hp := h p List.mem_cons_self
    cases p with
    | bracket image live behind => cases hp
    | span s =>
      rw [List.reverse_cons, List.append_assoc]
      exact hrest
    | run r =>
      rw [List.reverse_cons, List.append_assoc]
      exact hrest

theorem settleLastBreak_complete {ps : List Piece} (h : ∀ p ∈ ps, p.complete = true) :
    settleLastBreak ps = ps := by
  unfold settleLastBreak
  split
  · next hlast => cases h _ (List.mem_of_getLast? hlast)
  · rfl

def linkSpan (image : Bool) (d t : Text) (ss : List Span) : Span :=
  if image then .image d t ss else .link d t ss

def opening (image : Bool) : Text := if image then "![".toList else ['[']

/-- A target behind what has been read since the last bracket makes one span of it. -/
theorem close_target {r : Reading} {image : Bool} {own c rest : Content} {ps before : List Piece}
    {ss : List Span} {d t : Text}
    (hr : r.pieces = ps.reverse ++ .bracket image true own :: before)
    (hps : ∀ p ∈ ps, p.complete = true) (hs : Settles ps ss)
    (hlive : image = false → ∀ p ∈ before, disarm p = p) (hc : target? c = some (d, t, rest))
    (hrest : rest.dropCut = rest) :
    r.close [] c = ({ r with pieces := .span (linkSpan image d t ss) :: before }, rest) := by
  have hcomplete : ∀ p ∈ ps.reverse, p.complete = true := fun p hp => hps p (List.mem_reverse.mp hp)
  have hfound := lastBracket_found hcomplete (image, true, own) [] before
  rw [List.reverse_reverse, List.append_nil] at hfound
  have hinner : resolve (settleLastBreak ps) = ss := by
    rw [settleLastBreak_complete hps]
    exact hs.resolve_eq
  have hdirect : ∀ free, reference [] own c free = .direct d t rest := by
    intro free
    unfold reference
    simp only [hc]
  cases image with
  | true =>
    simp only [Reading.close, hr, hfound, ite_self, hdirect, hinner, hrest]
    rfl
  | false =>
    have hdisarm : before.map disarm = before :=
      (List.map_congr_left (hlive rfl)).trans (List.map_id before)
    simp only [Reading.close, hr, hfound, ite_self, hdirect, hinner, hrest, hdisarm]
    rfl

theorem readOne_opening (r : Reading) (image : Bool) (prev : Char) (t : Content) :
    Steps r prev (Content.ofText (opening image) ++ t)
      (r.push (.bracket image true t)) '[' t := by
  cases image with
  | true =>
    have hone : readOne [] r prev (.char '!') (.char '[' :: t) =
        (r.push (.bracket true true t), '[', t) := rfl
    exact .single hone (by simp)
  | false =>
    have hone : readOne [] r prev (.char '[') t = (r.push (.bracket false true t), '[', t) := rfl
    exact .single hone (Nat.le_refl _)

/-- Content between brackets with a target behind it is a link or an image. Nothing in it is a link,
and a link needs brackets before it that it leaves alone. -/
theorem brackets_yield {image linked : Bool} (hlinked : image = true ∨ linked = true) {d t : Text}
    (ht : SteadyTarget d t) {prev last : Char} {inner tail rest : Content} {ps : List Piece}
    {ss : List Span} (hinner : Yields false '[' inner (tail ++ rest) ps last) (hs : Settles ps ss)
    (htail : Laid (tailInks d t) tail) (hrest : rest.dropCut = rest) :
    ∃ u, unbroken u = t ∧ Yields linked prev (Content.ofText (opening image) ++ inner ++ tail) rest
      [.span (linkSpan image d u ss)] ']' := by
  obtain ⟨target, rfl, htarget⟩ : ∃ target, tail = .char ']' :: target ∧
      Laid (fixedInks ['('] ++ fixedInks (linkDestination d) ++ titleInks t ++ fixedInks [')'])
        target := by
    have hsplit : tailInks d t = .fixed ']' :: (fixedInks ['('] ++ fixedInks (linkDestination d) ++
        titleInks t ++ fixedInks [')']) := rfl
    rw [hsplit] at htail
    cases htail with
    | fixed hclosing h =>
      obtain rfl := symbol_eq hclosing (by decide)
      exact ⟨_, rfl, h⟩
  obtain ⟨u, hu, hread⟩ := target_reads htarget ht rest
  refine ⟨u, hu, ?_, ?_⟩
  · intro p hp
    rw [List.mem_singleton.mp hp]
    cases image <;> rfl
  · intro r hr
    have hopen := readOne_opening r image prev (inner ++ (.char ']' :: target ++ rest))
    have hsteps := hinner.steps (r.push (.bracket image true (inner ++ (.char ']' :: target ++ rest))))
      nofun
    have hclose := close_target (r := { r with pieces := ps.reverse ++
        (.bracket image true (inner ++ (.char ']' :: target ++ rest))) :: r.pieces })
      rfl hinner.complete hs (fun himage => hr (by simpa [himage] using hlinked))
      hread hrest
    have hlast : ∀ prev', readOne [] { r with pieces := ps.reverse ++
        (.bracket image true (inner ++ (.char ']' :: target ++ rest))) :: r.pieces } prev'
        (.char ']') (target ++ rest) =
          ({ r with pieces := .span (linkSpan image d u ss) :: r.pieces }, ']', rest) := by
      intro prev'
      change (((Reading.close _ [] _).1), ']', ((Reading.close _ [] _).2)) = _
      rw [hclose]
    have hend := Steps.single (hlast last) (by simp)
    simpa using (hopen.trans hsteps).trans hend

theorem takeWhile_ofText {p : Symbol → Bool} {t : Text} (ht : ∀ c ∈ t, p (.char c) = true)
    {s : Symbol} (hs : p s = false) (rest : Content) :
    (Content.ofText t ++ s :: rest).takeWhile p = Content.ofText t := by
  have hall : ∀ u ∈ Content.ofText t, p u = true := by
    intro u hu
    obtain ⟨c, hc, rfl⟩ := List.mem_map.mp hu
    exact ht c hc
  rw [List.takeWhile_append_of_pos hall, List.takeWhile_cons_of_neg (by simp [hs]), List.append_nil]

theorem not_angle_of_autolink {d : Text} (hd : AutolinkForm d) : ∀ x ∈ d, x ≠ '<' ∧ x ≠ '>' := by
  intro x hx
  cases hd with
  | @mk c scheme behind hletter _ _ hscheme hbehind =>
    have hclasses : Text.isLetter '<' = false ∧ Text.isLetter '>' = false ∧
        isSchemeChar '<' = false ∧ isSchemeChar '>' = false := by decide
    simp only [List.cons_append, List.mem_cons, List.mem_append] at hx
    rcases hx with rfl | hx | rfl | hx
    · constructor <;> rintro rfl <;> simp [hclasses] at hletter
    · have hclass := hscheme x hx
      constructor <;> rintro rfl <;> simp [hclasses] at hclass
    · decide
    · exact (hbehind x hx).2

theorem address_reads {d : Text} (hd : AutolinkForm d) (hchars : ∀ x ∈ d, 32 < x.toNat)
    (rest : Content) : address? (Content.ofText d ++ .char '>' :: rest) = some (d, rest) := by
  have hsymbols : ∀ x ∈ d, isAddressSymbol (.char x) = true := by
    intro x hx
    have hcontrol := hchars x hx
    have hangle := not_angle_of_autolink hd x hx
    simp [isAddressSymbol, Symbol.test, hcontrol, hangle]
  have hbody := takeWhile_ofText hsymbols (s := .char '>') rfl rest
  have hdrop : (Content.ofText d ++ .char '>' :: rest).drop (Content.ofText d).length =
      .char '>' :: rest := List.drop_left
  have hraw : (Content.ofText d).flatMap Symbol.raw = d := by
    rw [Content.ofText, List.flatMap_map]
    exact List.flatMap_singleton' d
  cases hd with
  | @mk c scheme behind hletter hleast hmost hscheme _ =>
    have hclass : ∀ x ∈ scheme, Symbol.test (fun c => Text.isLetterOrDigit c || c == '.' ||
        c == '-' || c == '+') (.char x) = true := by
      intro x hx
      have hx := hscheme x hx
      simp only [isSchemeChar, Bool.or_eq_true] at hx
      simp only [Symbol.test, Bool.or_eq_true]
      tauto
    have hscheme' := takeWhile_ofText hclass (s := .char ':') rfl
      (Content.ofText behind ++ .char '>' :: rest)
    have hcontent : Content.ofText (c :: scheme ++ ':' :: behind) ++ .char '>' :: rest =
        .char c :: (Content.ofText scheme ++ .char ':' ::
          (Content.ofText behind ++ .char '>' :: rest)) := by
      simp [Content.ofText]
    have hlength : (Content.ofText scheme).length = scheme.length := by simp [Content.ofText]
    have hcolon : ((Content.ofText scheme ++ .char ':' ::
        (Content.ofText behind ++ .char '>' :: rest)).drop scheme.length).head? =
          some (.char ':') := by
      rw [← hlength, List.drop_left]
      rfl
    have hfirst : Symbol.test Text.isLetter (.char c) = true := hletter
    have hsign : Symbol.test (fun x => x == ':') (.char ':') = true := rfl
    have hend : Content.after? ['>'] (.char '>' :: rest) = some rest := rfl
    rw [hcontent] at hbody hdrop ⊢
    simp only [address?, hscheme', hfirst, hcolon, hlength, hleast, hmost, hbody, hdrop, hraw, hend,
      decide_true, Bool.and_true, Option.any_some, hsign, if_true, Option.map_some]

theorem autolink_yields {d : Text} (hd : AutolinkForm d) (hchars : ∀ x ∈ d, 32 < x.toNat)
    (hpipe : '|' ∉ d) (prev : Char) {c rest : Content}
    (h : Laid (fixedInks ('<' :: d ++ ['>'])) c) (hrest : rest.dropCut = rest) :
    Yields false prev c rest [.span (.link d [] [.text d])] '>' := by
  have hwritten : '|' ∉ '<' :: d ++ ['>'] := by simp [hpipe]
  obtain rfl := laid_fixedInks h hwritten
  have hcontent : Content.ofText ('<' :: d ++ ['>']) =
      .char '<' :: Content.ofText (d ++ ['>']) := rfl
  have htail : Content.ofText (d ++ ['>']) ++ rest = Content.ofText d ++ .char '>' :: rest := by
    simp [Content.ofText]
  have haddress : (address? (Content.ofText d ++ .char '>' :: rest) <|>
      mailAddress? (Content.ofText d ++ .char '>' :: rest)) = some (d, rest) := by
    rw [address_reads hd hchars rest]
    rfl
  rw [hcontent]
  refine yields_single rfl fun r => ?_
  have hsigns : Text.isSpacing '<' = false ∧ ('<' == '\\') = false ∧ ('<' == '\x60') = false ∧
      ('<' == '<') = true := ⟨rfl, rfl, rfl, rfl⟩
  simp only [htail, readOne, readChar, hsigns, Bool.false_eq_true, if_false, if_true, haddress,
    hrest]
  rfl

end CanonMark.Markdown
