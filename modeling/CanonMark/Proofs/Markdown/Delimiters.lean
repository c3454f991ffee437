import CanonMark.Proofs.Layout.Spans
import CanonMark.Proofs.Markdown.Prose

/-! # Code and emphasis read back

Code is read up to a fence as long as the one that it begins with. Whether asterisks open or close
emphasis depends on their neighbours only by what these count as, so neither a line break in the
place of a space nor a backslash before punctuation makes a difference.
-/
namespace CanonMark.Markdown

open Layout (Ink Flat fixedInks textInks codeSpan longestRunFrom unbroken Fenced)

/-- Characters that count as the same beside a delimiter. -/
structure Akin (c d : Char) : Prop where
  blank : Text.isBlank c = Text.isBlank d
  punctuation : Text.isPunctuation c = Text.isPunctuation d

theorem canOpen_akin {prev prev' next next' : Char} (hp : Akin prev prev') (hn : Akin next next')
    (mark : Char) : canOpen mark prev next = canOpen mark prev' next' := by
  simp only [canOpen, hp.blank, hp.punctuation, hn.blank, hn.punctuation]

theorem canClose_akin {prev prev' next next' : Char} (hp : Akin prev prev') (hn : Akin next next')
    (mark : Char) : canClose mark prev next = canClose mark prev' next' := by
  simp only [canClose, hp.blank, hp.punctuation, hn.blank, hn.punctuation]

theorem Akin.refl (c : Char) : Akin c c where
  blank := rfl
  punctuation := rfl

theorem Trails.akin {c last : Char} (h : Trails c last) : Akin c last := by
  rcases h with rfl | ⟨rfl, rfl⟩
  · exact .refl _
  · exact ⟨by decide, by decide +kernel⟩

theorem akin_backslash {c : Char} (h : Text.isAsciiPunctuation c = true) : Akin c '\\' := by
  constructor
  · rw [(class_of_punctuation h).2]
    decide
  · rw [Text.isPunctuation, if_pos (toNat_lt_of_punctuation h), h]
    decide

inductive Meets : Char → Content → Prop where
  | nil : Meets '\n' []
  | char {c s t} : Symbol.char? s = some c → Meets c (s :: t)
  | slashed {c t} : Text.isAsciiPunctuation c = true → Meets c (.char '\\' :: t)
  | line {b t} : b.ending = ['\n'] → Meets ' ' (.newline b :: t)

/-- The character that a reader of inks meets first, if `next` stands behind them. -/
def firstOf (is : List Ink) (next : Char) : Char := (is.head?.map Ink.first).getD next

theorem Laid.meets {is : List Ink} {c : Content} (h : Laid is c) {next : Char} {rest : Content}
    (hrest : Meets next rest) : Meets (firstOf is next) (c ++ rest) := by
  cases h with
  | nil => exact hrest
  | plain hs _ => exact .char hs
  | slashed hc _ => exact .slashed hc
  | shielded _ => exact .char rfl
  | fixed hs _ => exact .char hs
  | space _ => exact .char rfl
  | line hb _ => exact .line hb

theorem Meets.akin {c : Char} {t : Content} (h : Meets c t) :
    Akin c ((t.head?.map Symbol.first).getD '\n') := by
  cases h with
  | nil => exact .refl _
  | @char _ s _ hs =>
    cases s with
    | char d =>
      obtain rfl : d = c := Option.some.inj hs
      exact .refl d
    | pipe =>
      obtain rfl : '|' = c := Option.some.inj hs
      exact akin_backslash (by decide)
    | _ => cases hs
  | slashed hc => exact akin_backslash hc
  | @line b _ hb =>
    have hfirst : Symbol.first (.newline b) = '\n' := by
      simp [Symbol.first, Symbol.raw, hb]
    change Akin ' ' (Symbol.first (.newline b))
    rw [hfirst]
    exact (Trails.akin (.inr ⟨rfl, rfl⟩))

theorem Meets.head_ne {c d : Char} {t : Content} (h : Meets c t) (hc : c ≠ d) (hd : d ≠ '\\') :
    t.head? ≠ some (.char d) := by
  cases h with
  | nil => simp
  | char hs =>
    intro hhead
    obtain rfl := Option.some.inj hhead
    exact hc (Option.some.inj hs).symm
  | slashed _ =>
    intro hhead
    exact hd (Symbol.char.inj (Option.some.inj hhead)).symm
  | line _ => simp

theorem Meets.dropTrail {c : Char} {t : Content} (h : Meets c t) : t.dropTrail = t := by
  cases h with
  | @char _ s t hs =>
    cases s with
    | trail w => cases hs
    | _ => rfl
  | _ => rfl

theorem Meets.dropCut {c : Char} {t : Content} (h : Meets c t) : t.dropCut = t := by
  cases h with
  | @char _ s t hs =>
    cases s with
    | cut => cases hs
    | _ => rfl
  | _ => rfl

theorem laid_fixedInks {t : Text} {c : Content} (h : Laid (fixedInks t) c) (ht : '|' ∉ t) :
    c = Content.ofText t := by
  induction t generalizing c with
  | nil =>
    cases h
    rfl
  | cons x t ih =>
    rw [List.mem_cons, not_or] at ht
    cases h with
    | @fixed _ s _ _ hs h =>
      rw [ih h ht.2, symbol_eq hs (Ne.symm ht.1)]
      rfl

theorem ofText_replicate (n : Nat) (c : Char) :
    Content.ofText (List.replicate n c) = List.replicate n (.char c) :=
  List.map_replicate

theorem runLength_ofText (c : Char) (n : Nat) {t : Content} (ht : t.head? ≠ some (.char c)) :
    Content.runLength c (Content.ofText (List.replicate n c) ++ t) = n := by
  have hstop : t.takeWhile (·.test (· == c)) = [] := by
    cases t with
    | nil => rfl
    | cons s t =>
      apply List.takeWhile_cons_of_neg
      cases s with
      | char d =>
        have hd : d ≠ c := by simpa using ht
        simpa [Symbol.test] using hd
      | _ => simp [Symbol.test]
  rw [Content.runLength, ofText_replicate, List.takeWhile_append_of_pos (by simp [Symbol.test]), hstop]
  simp

theorem codeText_laid {t : Text} {c : Content} (h : Laid (fixedInks t) c) : codeText c = t := by
  induction t generalizing c with
  | nil =>
    cases h
    rfl
  | cons x t ih =>
    cases h with
    | @fixed _ s _ _ hs h =>
      have hrest := ih h
      cases s with
      | char d =>
        obtain rfl : d = x := Option.some.inj hs
        exact congrArg (d :: ·) hrest
      | pipe =>
        obtain rfl : '|' = x := Option.some.inj hs
        exact congrArg ('|' :: ·) hrest
      | _ => cases hs

theorem codeBody_close {n seen k : Nat} (h : seen + k = n) {rest : Content}
    (hrest : rest.head? ≠ some (.char '\x60')) :
    codeBody? n seen (Content.ofText (List.replicate k '\x60') ++ rest) = some ([], rest) := by
  induction k generalizing seen with
  | zero =>
    obtain rfl : seen = n := h
    cases rest with
    | nil => simp [codeBody?, Content.ofText]
    | cons s rest =>
      have hs : s.test (· == '\x60') = false := by
        cases s with
        | char d =>
          have hd : d ≠ '\x60' := by simpa using hrest
          simpa [Symbol.test] using hd
        | _ => rfl
      simp [codeBody?, Content.ofText, hs]
  | succ k ih =>
    have htick : Symbol.test (fun c => c == '\x60') (.char '\x60') = true := rfl
    have hcons : Content.ofText (List.replicate (k + 1) '\x60') ++ rest =
        .char '\x60' :: (Content.ofText (List.replicate k '\x60') ++ rest) := rfl
    rw [hcons, codeBody?, if_pos htick]
    exact ih (by omega)

/-- Code without a run as long as the fence is read up to the fence. -/
theorem codeBody_laid {n seen longest : Nat} {body : Text} {c rest : Content}
    (hc : Laid (fixedInks body) c) (hrun : longestRunFrom '\x60' seen longest body < n)
    (hlast : (List.replicate seen '\x60' ++ body).getLast? ≠ some '\x60')
    (hrest : rest.head? ≠ some (.char '\x60')) :
    codeBody? n seen (c ++ (Content.ofText (List.replicate n '\x60') ++ rest)) =
      some (List.replicate seen (.char '\x60') ++ c, rest) := by
  induction body generalizing seen longest c with
  | nil =>
    cases hc
    obtain rfl : seen = 0 := by
      cases seen with
      | zero => rfl
      | succ seen => simp [List.getLast?_replicate] at hlast
    exact codeBody_close (Nat.zero_add n) hrest
  | cons x body ih =>
    cases hc with
    | @fixed _ s _ c hs hc =>
      have hseen := Layout.le_longestRunFrom '\x60' seen longest (x :: body)
      rw [longestRunFrom] at hrun
      rw [List.cons_append, codeBody?]
      by_cases hx : x = '\x60'
      · subst hx
        obtain rfl := symbol_eq hs (by decide)
        have hmove : List.replicate seen '\x60' ++ '\x60' :: body =
            List.replicate (seen + 1) '\x60' ++ body := by
          rw [List.replicate_succ', List.append_assoc]
          rfl
        have hsymbols : List.replicate seen (Symbol.char '\x60') ++ .char '\x60' :: c =
            List.replicate (seen + 1) (.char '\x60') ++ c := by
          rw [List.replicate_succ', List.append_assoc]
          rfl
        have htick : Symbol.test (fun c => c == '\x60') (.char '\x60') = true := rfl
        rw [if_pos rfl] at hrun
        rw [hmove] at hlast
        rw [if_pos htick, hsymbols]
        exact ih hc hrun hlast
      · have hother : s.test (· == '\x60') = false := symbol_test hs (by simpa using hx)
        rw [if_neg hx] at hrun
        have hopen := Layout.le_longestRunFrom '\x60' 0 (max seen longest) body
        have hbody : (List.replicate 0 '\x60' ++ body).getLast? ≠ some '\x60' := by
          cases body with
          | nil => simp
          | cons y body =>
            rw [List.getLast?_append_cons, List.getLast?_cons_cons] at hlast
            exact hlast
        rw [if_neg (by simp [hother]), if_neg (by omega), ih hc hrun hbody]
        rfl

theorem code_yields {l : Text} (hl : l ≠ []) (prev : Char) {c rest : Content}
    (h : Laid (fixedInks (codeSpan l)) c) {next : Char} (hrest : Meets next rest)
    (hnext : next ≠ '\x60') : Yields false prev c rest [.span (.code (unbroken l))] '\x60' := by
  obtain ⟨n, body, hbody, hspan⟩ := Layout.codeSpan_fenced hl
  have hinks : fixedInks (codeSpan l) =
      fixedInks (List.replicate n '\x60') ++ (fixedInks body ++ fixedInks (List.replicate n '\x60')) := by
    rw [hspan]
    simp [fixedInks]
  rw [hinks] at h
  obtain ⟨opening, inner, rfl, hopening, hinner⟩ := h.split
  obtain ⟨code, closing, rfl, hcode, hclosing⟩ := hinner.split
  have hpipe : '|' ∉ List.replicate n '\x60' := by simp
  obtain rfl := laid_fixedInks hopening hpipe
  obtain rfl := laid_fixedInks hclosing hpipe
  have hbehind : rest.head? ≠ some (.char '\x60') := hrest.head_ne hnext (by decide)
  have hend := @codeBody_laid n 0 0 _ _ _ hcode hbody.runs hbody.last hbehind
  have hfirst : (code ++ (Content.ofText (List.replicate n '\x60') ++ rest)).head? ≠
      some (.char '\x60') := by
    obtain ⟨x, u, rfl⟩ := List.exists_cons_of_ne_nil hbody.nonempty
    cases hcode with
    | fixed hs _ =>
      intro hhead
      obtain rfl := Option.some.inj hhead
      exact hbody.head (by rw [List.head?_cons]; exact hs.symm)
  obtain ⟨k, rfl⟩ := Nat.exists_eq_add_of_le' hbody.pos
  have hsplit : Content.ofText (List.replicate (k + 1) '\x60') ++
      (code ++ Content.ofText (List.replicate (k + 1) '\x60')) =
        .char '\x60' :: (Content.ofText (List.replicate k '\x60') ++
          (code ++ Content.ofText (List.replicate (k + 1) '\x60'))) := rfl
  rw [hsplit]
  refine yields_single rfl fun r => ?_
  have hrun := runLength_ofText '\x60' k hfirst
  have hdrop : (Content.ofText (List.replicate k '\x60') ++
      (code ++ (Content.ofText (List.replicate (k + 1) '\x60') ++ rest))).drop k =
        code ++ (Content.ofText (List.replicate (k + 1) '\x60') ++ rest) :=
    List.drop_left' (by simp [Content.ofText])
  have hspacing : Text.isSpacing '\x60' = false := rfl
  have hslash : ('\x60' == '\\') = false := rfl
  have htick : ('\x60' == '\x60') = true := rfl
  have hsucc : 1 + k = k + 1 := Nat.add_comm 1 k
  rw [List.append_assoc, List.append_assoc]
  simp only [readOne, readChar, hspacing, hslash, htick, Bool.false_eq_true, if_false, if_true, hrun,
    hsucc, Nat.add_sub_cancel, hdrop, hend, List.replicate_zero, List.nil_append, codeText_laid hcode,
    hbody.content_eq, hrest.dropTrail]
  rfl

theorem stars_yields (prev : Char) {n : Nat} (hn : n ≠ 0) {t : Content}
    (ht : t.head? ≠ some (.char '*')) (htrail : t.dropTrail = t) {next : Char}
    (hnext : (t.head?.map Symbol.first).getD '\n' = next)
    (hrun : canOpen '*' prev next = true ∨ canClose '*' prev next = true) :
    Yields false prev (Content.ofText (List.replicate n '*')) t
      [.run (stars n (canOpen '*' prev next) (canClose '*' prev next))] '*' := by
  obtain ⟨k, rfl⟩ := Nat.exists_eq_succ_of_ne_zero hn
  have hcons : Content.ofText (List.replicate k.succ '*') =
      .char '*' :: Content.ofText (List.replicate k '*') := rfl
  have hlength := runLength_ofText '*' k ht
  have hdrop : (Content.ofText (List.replicate k '*') ++ t).drop k = t :=
    List.drop_left' (by simp [Content.ofText])
  have hspacing : Text.isSpacing '*' = false := rfl
  have hsigns : ('*' == '\\') = false ∧ ('*' == '\x60') = false ∧ ('*' == '<') = false ∧
      ('*' == '&') = false ∧ ('*' == '!') = false ∧ ('*' == '[') = false ∧ ('*' == ']') = false :=
    ⟨rfl, rfl, rfl, rfl, rfl, rfl, rfl⟩
  have hboth : (!canOpen '*' prev next && !canClose '*' prev next) = false := by
    rcases hrun with h | h <;> simp [h]
  have hsucc : 1 + k = k + 1 := Nat.add_comm 1 k
  rw [hcons]
  refine yields_single rfl fun r => ?_
  simp only [readOne, readChar, hspacing, hsigns, Bool.false_eq_true, if_false, Bool.false_and,
    Nat.succ_eq_add_one, Nat.add_sub_cancel, hlength, hdrop, hsucc, hnext, hboth,
    beq_self_eq_true, Bool.true_or, if_true]
  split
  · cases htrail
  · rfl

/-- Asterisks around a readable text are read as emphasis of it. -/
theorem delimited_yields {n : Nat} (hn : n = 1 ∨ n = 2) {t : Text} (ht : t ≠ [])
    (hread : readable t = true) (hflat : Flat t) {before prev next : Char}
    (hprev : Trails before prev) {c rest : Content}
    (h : Laid (fixedInks (List.replicate n '*') ++ textInks false t ++
      fixedInks (List.replicate n '*')) c) (hrest : Meets next rest) (hnext : next ≠ '*')
    (hopen : canOpen '*' before (firstOf (textInks false t) '*') = true)
    (hclose : canClose '*' (t.getLast?.getD '*') next = true) :
    ∃ ps ss, Says ss t ∧ Settles ps (enclose n ss) ∧ Yields false prev c rest ps '*' := by
  obtain ⟨front, closing, rfl, hfront, hclosing⟩ := h.split
  obtain ⟨opening, inner, rfl, hopening, hinner⟩ := hfront.split
  have hpipe : '|' ∉ List.replicate n '*' := by simp
  obtain rfl := laid_fixedInks hopening hpipe
  obtain rfl := laid_fixedInks hclosing hpipe
  have hpos : n ≠ 0 := by omega
  have hcons : ∀ u, Content.ofText (List.replicate n '*') ++ u =
      .char '*' :: (Content.ofText (List.replicate (n - 1) '*') ++ u) := by
    intro u
    obtain ⟨k, rfl⟩ := Nat.exists_eq_succ_of_ne_zero hpos
    rfl
  have hstars : Stops false (Content.ofText (List.replicate n '*') ++ rest) := by
    intro s hs
    rw [hcons] at hs
    obtain rfl : Symbol.char '*' = s := Option.some.inj hs
    exact ⟨'*', rfl, .inl (by decide)⟩
  obtain ⟨ss, last, hsays, hyields, hlast⟩ := prose_reads hread hflat '*' hinner hstars
  -- the opening asterisks stand before the text, which begins with no asterisk
  have hmeets : Meets (firstOf (textInks false t) '*')
      (inner ++ (Content.ofText (List.replicate n '*') ++ rest)) :=
    hinner.meets (by rw [hcons]; exact .char rfl)
  have hfirst : firstOf (textInks false t) '*' ≠ '*' := by
    obtain ⟨x, u, rfl⟩ := List.exists_cons_of_ne_nil ht
    rcases textInk_cases false none x u with ⟨-, hink⟩ | ⟨-, hink⟩ | ⟨-, hm, -, hink⟩
    · simp [firstOf, textInks, Layout.textInksFrom, hink, Ink.first]
    · simp [firstOf, textInks, Layout.textInksFrom, hink, Ink.first]
    · have hne := (Layout.ne_of_not_isMarkup hm).2.1
      simpa [firstOf, textInks, Layout.textInksFrom, hink, Ink.first] using hne
  have hopens := canOpen_akin hprev.akin hmeets.akin '*'
  rw [hopen] at hopens
  have hcloses := canClose_akin (hlast.akin) hrest.akin '*'
  rw [hclose] at hcloses
  have hone := stars_yields prev hpos (hmeets.head_ne hfirst (by decide)) hmeets.dropTrail rfl
    (.inl hopens.symm)
  have htwo := stars_yields last hpos (hrest.head_ne hnext (by decide)) hrest.dropTrail rfl
    (.inr hcloses.symm)
  rw [← hopens, ← List.append_assoc] at hone
  rw [← hcloses] at htwo
  generalize canClose '*' prev _ = closes at hone
  generalize canOpen '*' last _ = opens at htwo
  refine ⟨.run (stars n true closes) :: (ss.map .span ++ [.run (stars n opens true)]), ss, hsays,
    settles_delimited hn opens closes ss, ?_⟩
  rw [List.append_assoc]
  exact hone.append (hyields.append htwo)

end CanonMark.Markdown
