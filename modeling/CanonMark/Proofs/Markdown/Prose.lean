import CanonMark.Proofs.Layout.Flattening
import CanonMark.Proofs.Layout.References
import CanonMark.Proofs.Markdown.Laid
import CanonMark.Proofs.Markdown.Steps
import CanonMark.Proofs.Text.Decoding

/-! # Texts read back

The reader takes a text apart where it meets an escape, a space, a line break or a sign that could
be markup, but it adds nothing except text. Escaping leaves three things to the text itself: white
space other than spaces, an underscore between characters that also count as punctuation, and a
less-than sign before a mail address.
-/
namespace CanonMark.Markdown

open Layout (Ink Flat textInk textInks textInksFrom isMarkup opensTag isReference unbroken)

/-- Whether a character between what stands before and behind it is read as itself. -/
def isReadable (prev : Option Char) (c : Char) (rest : Text) : Bool :=
  (!Text.isSpacing c || c == ' ') &&
    (isMarkup prev c rest ||
      (c != '_' || prev.all fun p => rest.head?.all fun d => !canOpen '_' p d && !canClose '_' p d) &&
      (c != '<' || (rest.dropWhile isMailChar).head?.any (· != '@')))

def readableFrom (prev : Option Char) : Text → Bool
  | [] => true
  | c :: t => isReadable prev c t && readableFrom (some c) t

/-- Text of which every character is read as itself. -/
def readable (t : Text) : Bool := readableFrom none t

def Stops (bang : Bool) (rest : Content) : Prop :=
  ∀ s ∈ rest.head?, ∃ d, s = .char d ∧ (d ∈ "*\x60<!]".toList ∨ d = '[' ∧ bang = true)

/-- Spans of text, and the text that they come to when line breaks are spaces. -/
inductive Says : List Span → Text → Prop where
  | nil : Says [] []
  | text (u) {ss t} : Says ss t → Says (.text u :: ss) (unbroken u ++ t)
  | softBreak {ss t} : Says ss t → Says (.softBreak :: ss) (' ' :: t)

theorem Says.addedText {ss : List Span} {t : Text} (h : Says ss t) (before : List Node) (l : Text) :
    ∃ u, spansNodes (before ++ [.ofText l]) ss = before ++ [.ofText (l ++ u)] ∧ unbroken u = t := by
  induction h generalizing l with
  | nil => exact ⟨[], by rw [List.append_nil]; rfl, rfl⟩
  | text v _ ih =>
    obtain ⟨u, hnodes, hu⟩ := ih (l ++ v)
    refine ⟨v ++ u, ?_, by rw [Layout.unbroken_append, hu]⟩
    rw [spansNodes, spanNodes, addedText_concat rfl]
    rw [← List.append_assoc]
    exact hnodes
  | softBreak _ ih =>
    obtain ⟨u, hnodes, hu⟩ := ih (l ++ ['\n'])
    refine ⟨'\n' :: u, ?_, by rw [← hu]; rfl⟩
    rw [spansNodes, spanNodes, addedText_concat rfl]
    rw [List.append_assoc] at hnodes
    exact hnodes

theorem Says.nodes {ss : List Span} {t : Text} (h : Says ss t) (ht : t ≠ []) (before : List Node)
    (hbefore : ∀ n ∈ before.getLast?, n.isText = false) :
    ∃ u, spansNodes before ss = before ++ [.ofText u] ∧ unbroken u = t := by
  cases h with
  | nil => exact absurd rfl ht
  | text v hss =>
    obtain ⟨u, hnodes, hu⟩ := hss.addedText before v
    refine ⟨v ++ u, ?_, by rw [Layout.unbroken_append, hu]⟩
    rw [spansNodes, spanNodes, addedText_of_not_text hbefore]
    exact hnodes
  | softBreak hss =>
    obtain ⟨u, hnodes, hu⟩ := hss.addedText before ['\n']
    refine ⟨'\n' :: u, ?_, by rw [← hu]; rfl⟩
    rw [spansNodes, spanNodes, addedText_of_not_text hbefore]
    exact hnodes

/-- The character that the reader has passed last, where a space may have been a line break. -/
def Trails (c last : Char) : Prop := last = c ∨ c = ' ' ∧ last = '\n'

theorem Trails.behind {c last last' : Char} {t : Text} (h : Trails c last)
    (h' : Trails (t.getLast?.getD last) last') : Trails (t.getLast?.getD c) last' := by
  cases ht : t.getLast? with
  | some d =>
    rw [ht] at h'
    exact h'
  | none =>
    rw [ht] at h'
    rcases h with rfl | ⟨rfl, rfl⟩
    · exact h'
    · refine .inr ⟨rfl, ?_⟩
      simpa [Trails] using h'

theorem readOne_space (r : Reading) (prev : Char) {t : Content}
    (ht : ∀ s ∈ t.head?, s.isBlank = false) :
    readOne [] r prev (.char ' ') t = (r.push (.span (.text [' '])), ' ', t) := by
  cases t with
  | nil => rfl
  | cons s t =>
    have hs : s.isBlank = false := ht s rfl
    have hlead : (Content.leading (s :: t)).takeWhile Text.isSpacing = [] := by
      cases s with
      | char c =>
        have hc : Text.isSpacing c = false := by
          simpa [Symbol.isBlank, Symbol.isSpacing, Symbol.isNewline] using hs
        rw [Content.leading, List.takeWhile_cons_of_neg (by simp [hc])]
      | _ => rfl
    have hspacing : Text.isSpacing ' ' = true := rfl
    simp only [readOne, readChar, hspacing, if_true, hlead, List.length_singleton, Nat.sub_self,
      List.drop_zero]
    cases s with
    | newline b => cases hs
    | _ => rfl

theorem readOne_newline (r : Reading) (prev : Char) (b : Break) (t : Content) :
    readOne [] r prev (.newline b) t = (r.push (.span .softBreak), '\n', t) := rfl

theorem readOne_escape (r : Reading) (prev : Char) {c : Char}
    (hc : Text.isAsciiPunctuation c = true) (t : Content) :
    readOne [] r prev (.char '\\') (.char c :: t) = (r.push (.span (.text [c])), c, t) := by
  have hspacing : Text.isSpacing '\\' = false := rfl
  have hone : readOne [] r prev (.char '\\') (.char c :: t) =
      if Text.isAsciiPunctuation c then (r.text [c], c, t)
      else (r.text ['\\'], '\\', .char c :: t) := by
    rw [readOne, readChar, hspacing, if_neg (by simp), if_pos (beq_self_eq_true _)]
    · rfl
    · intro b hb
      cases hb
  rw [hone, if_pos hc]
  rfl

theorem readOne_pipe (r : Reading) (prev : Char) (t : Content) :
    readOne [] r prev .pipe t = (r.push (.span (.text ['|'])), '|', t) := rfl

theorem readOne_underscore (r : Reading) {prev d : Char} (hd : d ≠ '_')
    (hopen : canOpen '_' prev d = false) (hclose : canClose '_' prev d = false) (t : Content) :
    readOne [] r prev (.char '_') (.char d :: t) =
      (r.push (.span (.text ['_'])), '_', .char d :: t) := by
  have hspacing : Text.isSpacing '_' = false := rfl
  have hrun : Content.runLength '_' (.char d :: t) = 0 := by
    simp [Content.runLength, Symbol.test, hd]
  have hfirst : Symbol.first (.char d) = d := rfl
  simp [readOne, readChar, hspacing, hrun, hfirst, hopen, hclose, Reading.push, Reading.text,
    Reading.span]

theorem readOne_angle (r : Reading) (prev : Char) {t : Content} (haddress : address? t = none)
    (hmail : mailAddress? t = none) (hhtml : Html.inline? t = none) :
    readOne [] r prev (.char '<') t = (r.push (.span (.text ['<'])), '<', t) := by
  have hspacing : Text.isSpacing '<' = false := rfl
  simp [readOne, readChar, hspacing, haddress, hmail, hhtml, Reading.push, Reading.text,
    Reading.span]

theorem readOne_ampersand (r : Reading) (prev : Char) {t : Content}
    (h : Text.Entity.read? t.leading = none) :
    readOne [] r prev (.char '&') t = (r.push (.span (.text ['&'])), '&', t) := by
  have hspacing : Text.isSpacing '&' = false := rfl
  simp [readOne, readChar, hspacing, h, Reading.push, Reading.text, Reading.span]

theorem readOne_chunk (r : Reading) (prev : Char) {c : Char} {t : Content}
    (h : isSpecial c = false ∨ c = '!' ∧ t.head? ≠ some (.char '[')) :
    readOne [] r prev (.char c) t =
      (r.push (.span (.text (c :: t.leading.takeWhile fun d => !isSpecial d))),
        (t.leading.takeWhile fun d => !isSpecial d).getLast?.getD c,
        t.drop (t.leading.takeWhile fun d => !isSpecial d).length) := by
  rcases h with h | ⟨rfl, h⟩
  · simp only [isSpecial, Bool.or_eq_false_iff] at h
    simp only [readOne, readChar, h, Bool.false_eq_true, if_false, Bool.false_and, Bool.or_self]
    rfl
  · have hnext : (t.head?.any (·.test (· == '['))) = false := by
      cases t with
      | nil => rfl
      | cons s t =>
        cases s with
        | char d =>
          have hd : d ≠ '[' := by simpa using h
          simpa [Symbol.test] using hd
        | _ => rfl
    have hspacing : Text.isSpacing '!' = false := rfl
    simp [readOne, readChar, hspacing, hnext, Reading.push, Reading.text, Reading.span]

/-- Content that was written with a text, by the form of its first character. -/
inductive Begins (bang : Bool) (prev : Option Char) (x : Char) (t : Text) : Content → Prop where
  | space {c} : x = ' ' → Laid (textInksFrom bang (some x) t) c → Begins bang prev x t (.char ' ' :: c)
  | line {b c} : x = ' ' → Laid (textInksFrom bang (some x) t) c → Begins bang prev x t (.newline b :: c)
  | escape {c} : Text.isAsciiPunctuation x = true → Laid (textInksFrom bang (some x) t) c →
      Begins bang prev x t (.char '\\' :: .char x :: c)
  | pipe {c} : x = '|' → Laid (textInksFrom bang (some x) t) c → Begins bang prev x t (.pipe :: c)
  | char {c} : isMarkup prev x t = false → x ≠ ' ' → (bang = true → x = '!' → t ≠ []) →
      Laid (textInksFrom bang (some x) t) c → Begins bang prev x t (.char x :: c)

theorem textInk_cases (bang : Bool) (prev : Option Char) (x : Char) (t : Text) :
    (x = ' ' ∧ textInk bang prev x t = .gap) ∨
      (Text.isAsciiPunctuation x = true ∧ textInk bang prev x t = .shielded x) ∨
      (x ≠ ' ' ∧ isMarkup prev x t = false ∧ (bang = true → x = '!' → t ≠ []) ∧
        textInk bang prev x t = .plain x) := by
  by_cases hspace : x = ' '
  · exact .inl ⟨hspace, if_pos hspace⟩
  · by_cases hm : isMarkup prev x t = true
    · exact .inr (.inl ⟨Layout.punctuation_of_isMarkup hm, by simp [textInk, hspace, hm]⟩)
    · by_cases hbang : bang = true ∧ x = '!' ∧ t = []
      · obtain ⟨rfl, rfl, rfl⟩ := hbang
        exact .inr (.inl ⟨by decide, by simp [textInk]⟩)
      · refine .inr (.inr ⟨hspace, by simpa using hm, ?_, ?_⟩)
        · intro hb hx ht
          exact hbang ⟨hb, hx, ht⟩
        · have hno : (bang && x == '!' && t.isEmpty) = false := by
            simpa [and_assoc] using hbang
          simp only [textInk, if_neg hspace, hno, Bool.or_false, if_neg hm]

theorem text_begins {bang : Bool} {prev : Option Char} {x : Char} {t : Text} {c : Content}
    (h : Laid (textInksFrom bang prev (x :: t)) c) : Begins bang prev x t c := by
  rw [textInksFrom] at h
  rcases textInk_cases bang prev x t with ⟨hx, hink⟩ | ⟨hx, hink⟩ | ⟨hspace, hm, hbang, hink⟩
  · rw [hink] at h
    cases h with
    | space hc => exact .space hx hc
    | line _ hc => exact .line hx hc
  · rw [hink] at h
    cases h with
    | shielded hc => exact .escape hx hc
  · rw [hink] at h
    cases h with
    | @plain _ s _ _ hs hc =>
      cases s with
      | char d =>
        obtain rfl : d = x := Option.some.inj hs
        exact .char hm hspace hbang hc
      | pipe => exact .pipe (Option.some.inj hs).symm hc
      | _ => cases hs
    | slashed hx hc => exact .escape hx hc

/-- The first symbol of a text is not of a class to which neither a backslash nor a space belongs,
nor the first character if that is no markup. -/
theorem head_test {bang : Bool} {prev : Option Char} {x : Char} {t : Text} {c : Content}
    (h : Laid (textInksFrom bang prev (x :: t)) c) {q : Char → Bool} (hslash : q '\\' = false)
    (hspace : q ' ' = false) (hx : isMarkup prev x t = false → q x = false) :
    ∃ s after, c = s :: after ∧ s.test q = false := by
  cases text_begins h with
  | space _ _ => exact ⟨_, _, rfl, hspace⟩
  | line _ _ => exact ⟨_, _, rfl, rfl⟩
  | escape _ _ => exact ⟨_, _, rfl, hslash⟩
  | pipe _ _ => exact ⟨_, _, rfl, rfl⟩
  | char hm _ _ _ => exact ⟨_, _, rfl, hx hm⟩

theorem Stops.test {bang : Bool} {rest : Content} (h : Stops bang rest) {q : Char → Bool}
    (hq : "*\x60<![]".toList.all (!q ·) = true) : ∀ s ∈ rest.head?, s.test q = false := by
  intro s hs
  obtain ⟨d, rfl, hd⟩ := h s hs
  have hmem : d ∈ "*\x60<![]".toList := by
    rcases hd with hd | ⟨rfl, -⟩
    · simp at hd ⊢
      tauto
    · decide
  change q d = false
  simpa using List.all_eq_true.mp hq d hmem

/-- Behind an ampersand the reader sees no more of a reference than the text has. -/
theorem leading_prefix {bang : Bool} {prev : Option Char} {t : Text} {c rest : Content}
    (h : Laid (textInksFrom bang prev t) c) (hrest : Stops bang rest) {q : Char → Bool}
    (hslash : q '\\' = false) (hspace : q ' ' = false) (hq : "*\x60<![]".toList.all (!q ·) = true)
    {body u : Text} (hbody : ∀ d ∈ body, q d = true) (hlead : (c ++ rest).leading = body ++ u) :
    ∃ v, t = body ++ v := by
  induction t generalizing prev c body with
  | nil =>
    cases h with
    | nil =>
      cases body with
      | nil => exact ⟨[], rfl⟩
      | cons d body =>
        cases rest with
        | nil => cases hlead
        | cons s rest =>
          cases s with
          | char e =>
            obtain rfl : e = d := (List.cons.inj hlead).1
            have hno := hrest.test hq (.char e) rfl
            rw [Symbol.test, hbody e (by simp)] at hno
            cases hno
          | _ => cases hlead
  | cons x t ih =>
    cases body with
    | nil => exact ⟨x :: t, rfl⟩
    | cons d body =>
      have hd : q d = true := hbody d (by simp)
      cases text_begins h with
      | space _ _ =>
        obtain rfl : ' ' = d := (List.cons.inj hlead).1
        rw [hspace] at hd
        cases hd
      | line _ _ => cases hlead
      | escape _ _ =>
        obtain rfl : '\\' = d := (List.cons.inj hlead).1
        rw [hslash] at hd
        cases hd
      | pipe _ _ => cases hlead
      | char _ _ _ hc =>
        obtain ⟨rfl, hmore⟩ := List.cons.inj hlead
        obtain ⟨v, rfl⟩ := ih hc (fun e he => hbody e (by simp [he])) hmore
        exact ⟨v, rfl⟩

def isReferenceChar (c : Char) : Bool := Text.isLetterOrDigit c || c == '#' || c == ';'

theorem referenceBody_chars {body : Text} (h : Layout.ReferenceBody body) :
    ∀ d ∈ body ++ [';'], isReferenceChar d = true := by
  intro d hd
  rcases List.mem_append.mp hd with hd | hd
  · cases h with
    | decimal _ _ hdigits =>
      rcases List.mem_cons.mp hd with rfl | hd
      · rfl
      · simp [isReferenceChar, Text.isLetterOrDigit, hdigits d hd]
    | hexadecimal hx _ _ hdigits =>
      rcases List.mem_cons.mp hd with rfl | hd
      · rfl
      · rcases List.mem_cons.mp hd with rfl | hd
        · rcases hx with rfl | rfl <;> rfl
        · simp [isReferenceChar, Text.letterOrDigit_of_hexDigit (hdigits d hd)]
    | named hc _ _ hname =>
      rcases List.mem_cons.mp hd with rfl | hd
      · simp [isReferenceChar, Text.isLetterOrDigit, hc]
      · simp [isReferenceChar, hname d hd]
  · rw [List.mem_singleton.mp hd]
    rfl

theorem no_reference {bang : Bool} {prev : Option Char} {t : Text} {c rest : Content}
    (h : Laid (textInksFrom bang prev t) c) (hrest : Stops bang rest)
    (ht : isReference t = false) : Text.Entity.read? (c ++ rest).leading = none := by
  cases hread : Text.Entity.read? (c ++ rest).leading with
  | none => rfl
  | some found =>
    obtain ⟨meaning, after⟩ := found
    obtain ⟨body, behind, hlead, hbody⟩ := Layout.beginsReference_of_read hread
    have hsplit : (c ++ rest).leading = (body ++ [';']) ++ behind := by simpa using hlead
    obtain ⟨v, rfl⟩ := leading_prefix h hrest (q := isReferenceChar) rfl rfl (by decide)
      (referenceBody_chars hbody) hsplit
    have hbegins : Layout.BeginsReference (body ++ [';'] ++ v) := ⟨body, v, by simp, hbody⟩
    rw [hbegins.isReference] at ht
    cases ht

theorem no_mail {bang : Bool} {prev : Option Char} {t : Text} {c rest : Content}
    (h : Laid (textInksFrom bang prev t) c)
    (ht : (t.dropWhile isMailChar).head?.any (· != '@') = true) :
    mailAddress? (c ++ rest) = none := by
  have hbehind : (((c ++ rest).leading.dropWhile isMailChar).head?) ≠ some '@' := by
    induction t generalizing prev c with
    | nil => simp at ht
    | cons x t ih =>
      cases text_begins h with
      | space _ _ =>
        have hspace : isMailChar ' ' = false := by decide
        simp [Content.leading, hspace]
      | line _ _ => simp [Content.leading]
      | escape _ _ =>
        have hslash : isMailChar '\\' = false := by decide
        simp [Content.leading, hslash]
      | pipe _ _ => simp [Content.leading]
      | char _ _ _ hc =>
        by_cases hmail : isMailChar x = true
        · rw [List.dropWhile_cons_of_pos hmail] at ht
          simpa [Content.leading, hmail] using ih hc ht
        · rw [List.dropWhile_cons_of_neg hmail] at ht
          simpa [Content.leading, hmail] using ht
  have hsplit : ∀ chars : Text,
      chars.drop (chars.takeWhile isMailChar).length = chars.dropWhile isMailChar := by
    intro chars
    have hfront := List.prefix_iff_eq_append.mp (List.takeWhile_prefix isMailChar (l := chars))
    exact List.append_cancel_left (hfront.trans List.takeWhile_append_dropWhile.symm)
  simp only [mailAddress?, hsplit]
  split
  · next rest hdrop =>
    rw [hdrop] at hbehind
    exact absurd rfl hbehind
  · rfl

def opensAngle (c : Char) : Bool := Text.isLetterOrDigit c || c == '/' || c == '!' || c == '?'

theorem no_address {s : Symbol} (h : s.test opensAngle = false) (t : Content) :
    address? (s :: t) = none := by
  have hletter : s.test Text.isLetter = false := by
    cases s with
    | char c =>
      have hc : opensAngle c = false := h
      simp only [opensAngle, Text.isLetterOrDigit, Bool.or_eq_false_iff] at hc
      exact hc.1.1.1.1
    | _ => rfl
  simp [address?, hletter]

theorem no_html {s : Symbol} (h : s.test opensAngle = false) (t : Content) :
    Html.inline? (s :: t) = none := by
  have hne : s ≠ .char '?' ∧ s ≠ .char '!' ∧ s ≠ .char '/' ∧ s.test Text.isLetter = false := by
    refine ⟨?_, ?_, ?_, ?_⟩
    · rintro rfl
      cases h
    · rintro rfl
      cases h
    · rintro rfl
      cases h
    · cases s with
      | char c =>
        have hc : opensAngle c = false := h
        simp only [opensAngle, Text.isLetterOrDigit, Bool.or_eq_false_iff] at hc
        exact hc.1.1.1.1
      | _ => rfl
  have htag : Html.tag? (s :: t) = none := by
    unfold Html.tag?
    split
    · next heq => exact absurd (List.cons.inj heq).1 hne.2.2.1
    · next heq =>
      obtain ⟨rfl, rfl⟩ := List.cons.inj heq
      rw [hne.2.2.2]
      rfl
    · rfl
  unfold Html.inline?
  split
  · next heq => exact absurd (List.cons.inj heq).1 hne.1
  · next heq => exact absurd (List.cons.inj heq).1 hne.2.1
  · rw [htag]
    rfl

/-- Content with `rest` behind it is read as a text. -/
def ReadAs (prev : Char) (t : Text) (c rest : Content) : Prop :=
  ∃ ss last, Says ss t ∧ Yields false prev c rest (ss.map .span) last ∧
    Trails (t.getLast?.getD prev) last

theorem readAs_nil (prev : Char) (rest : Content) : ReadAs prev [] [] rest :=
  ⟨[], prev, .nil, yields_nil false prev rest, .inl rfl⟩

theorem ReadAs.cons {prev x last : Char} {t : Text} {s : Symbol} {u c rest : Content} {sp : Span}
    (h : ReadAs last t c rest) (hsay : ∀ {ss : List Span}, Says ss t → Says (sp :: ss) (x :: t))
    (htrails : Trails x last) (hcomplete : (Piece.span sp).complete = true)
    (hstep : ∀ r : Reading, readOne [] r prev s (u ++ (c ++ rest)) =
      (r.push (.span sp), last, c ++ rest)) : ReadAs prev (x :: t) (s :: u ++ c) rest := by
  obtain ⟨ss, last', hsays, hyields, hlast⟩ := h
  have hone := @yields_single prev last s u (c ++ rest) (.span sp) hcomplete hstep
  refine ⟨sp :: ss, last', hsay hsays, hone.append hyields, ?_⟩
  rw [List.getLast?_cons]
  exact htrails.behind hlast

theorem says_char {x : Char} (hx : x ≠ '\n') {ss : List Span} {t : Text} (h : Says ss t) :
    Says (.text [x] :: ss) (x :: t) := by
  have htext := Says.text [x] h
  rwa [show unbroken [x] = [x] by simp [unbroken, hx]] at htext

/-- The longest front of the content that the reader takes at once is a front of the text, and the
rest of the text is read behind it. -/
def ReadBehind (prev : Char) (t : Text) (c rest : Content) : Prop :=
  ∃ more v after, (c ++ rest).leading.takeWhile (fun d => !isSpecial d) = more ∧ t = more ++ v ∧
    c = Content.ofText more ++ after ∧ ReadAs (more.getLast?.getD prev) v after rest

theorem ReadAs.behind {prev : Char} {t : Text} {c rest : Content} (h : ReadAs prev t c rest)
    (hfirst : ∀ s ∈ (c ++ rest).head?, s.test (fun d => !isSpecial d) = false) :
    ReadBehind prev t c rest := by
  refine ⟨[], t, c, ?_, rfl, rfl, h⟩
  cases hhead : c ++ rest with
  | nil => rfl
  | cons s after =>
    have hs := hfirst s (by rw [hhead]; rfl)
    cases s with
    | char d =>
      rw [Content.leading, List.takeWhile_cons_of_neg]
      simpa [Symbol.test] using hs
    | _ => rfl

theorem ReadBehind.cons {x : Char} {t : Text} {c rest : Content} (h : ReadBehind x t c rest)
    (hx : isSpecial x = false) (prev : Char) : ReadBehind prev (x :: t) (.char x :: c) rest := by
  obtain ⟨more, v, after, hmore, rfl, rfl, hrest⟩ := h
  refine ⟨x :: more, v, after, ?_, rfl, rfl, ?_⟩
  · rw [List.cons_append, Content.leading, List.takeWhile_cons_of_pos (by simp [hx]), hmore]
  · rw [List.getLast?_cons]
    exact hrest

theorem ReadBehind.chunk {prev x : Char} {t : Text} {c rest : Content} (h : ReadBehind x t c rest)
    (hline : '\n' ∉ x :: t)
    (hx : isSpecial x = false ∨ x = '!' ∧ (c ++ rest).head? ≠ some (.char '[')) :
    ReadAs prev (x :: t) (.char x :: c) rest := by
  obtain ⟨more, v, after, hmore, rfl, rfl, ss, last, hsays, hyields, hlast⟩ := h
  have hchunk : '\n' ∉ x :: more := by
    intro hm
    refine hline ?_
    rw [List.mem_cons] at hm ⊢
    rcases hm with hm | hm
    · exact .inl hm
    · exact .inr (List.mem_append_left v hm)
  have hone : Yields false prev (.char x :: Content.ofText more) (after ++ rest)
      [.span (.text (x :: more))] (more.getLast?.getD x) := by
    refine yields_single rfl fun r => ?_
    rw [List.append_assoc] at hmore hx
    rw [readOne_chunk r prev hx, hmore]
    simp [Content.ofText]
  refine ⟨.text (x :: more) :: ss, last, ?_, hone.append hyields, ?_⟩
  · have htext := Says.text (x :: more) hsays
    rwa [Layout.unbroken_of_not_mem hchunk] at htext
  · have hend : (x :: (more ++ v)).getLast?.getD prev = v.getLast?.getD (more.getLast?.getD x) := by
      rw [List.getLast?_cons, List.getLast?_append]
      cases v.getLast? <;> rfl
    rwa [hend]

theorem toNat_lt_of_punctuation {c : Char} (h : Text.isAsciiPunctuation c = true) :
    c.toNat < 128 := by
  simp only [Text.isAsciiPunctuation, Bool.or_eq_true, Bool.and_eq_true, decide_eq_true_eq,
    Char.le_def] at h
  have hle : c.val ≤ '~'.val := by grind
  exact Nat.lt_of_le_of_lt hle (by decide)

theorem class_of_punctuation {c : Char} (h : Text.isAsciiPunctuation c = true) :
    Text.isAlphanumeric c = false ∧ Text.isBlank c = false := by
  have hall : ∀ n < 128, Text.isAsciiPunctuation (Char.ofNat n) = true →
      Text.isAlphanumeric (Char.ofNat n) = false ∧ Text.isBlank (Char.ofNat n) = false := by
    decide +kernel
  have hc := hall c.toNat (toNat_lt_of_punctuation h)
  rw [Char.ofNat_toNat] at hc
  exact hc h

section

variable {bang : Bool} {x : Char} {t : Text} {c rest : Content}
  (h : Laid (textInksFrom bang (some x) t) c)
include h

theorem underscore_reads {prev : Char} {before : Option Char} (hx : x = '_')
    (hbefore : ∀ d ∈ before, d = ' ' ∨ prev = d) (hm : isMarkup before x t = false)
    (hread : isReadable before x t = true) (hbehind : ReadAs x t c rest) :
    ReadAs prev (x :: t) (.char x :: c) rest := by
  subst hx
  have hsides : (∃ d ∈ before, Text.isAlphanumeric d = true) ∧
      ∃ d ∈ t.head?, Text.isAlphanumeric d = true := by
    simpa [isMarkup, Option.any_eq_true] using hm
  obtain ⟨⟨p, hp, hpclass⟩, d, hd, hdclass⟩ := hsides
  obtain ⟨u, rfl⟩ := List.head?_eq_some_iff.mp hd
  obtain rfl : before = some p := hp
  obtain rfl : prev = p := by
    rcases hbefore p rfl with rfl | hprev
    · exact absurd hpclass (by decide)
    · exact hprev
  have hclosed : canOpen '_' prev d = false ∧ canClose '_' prev d = false := by
    have hno : Text.isSpacing '_' = false := rfl
    simpa [isReadable, hm, hno] using hread
  obtain ⟨after, rfl⟩ : ∃ after, c = .char d :: after := by
    cases text_begins h with
    | space hsp _ =>
      rw [hsp] at hdclass
      exact absurd hdclass (by decide)
    | line hsp _ =>
      rw [hsp] at hdclass
      exact absurd hdclass (by decide)
    | escape hpunctuation _ =>
      have hno := (class_of_punctuation hpunctuation).1
      rw [hdclass] at hno
      cases hno
    | pipe hpipe _ =>
      rw [hpipe] at hdclass
      exact absurd hdclass (by decide)
    | char _ _ _ _ => exact ⟨_, rfl⟩
  have hne : d ≠ '_' := by
    rintro rfl
    exact absurd hdclass (by decide)
  exact hbehind.cons (u := []) (says_char (by decide)) (.inl rfl) rfl
    fun r => readOne_underscore r hne hclosed.1 hclosed.2 (after ++ rest)

theorem angle_reads {prev : Char} {before : Option Char} (hx : x = '<')
    (hm : isMarkup before x t = false) (hread : isReadable before x t = true)
    (hbehind : ReadAs x t c rest) : ReadAs prev (x :: t) (.char x :: c) rest := by
  subst hx
  have hopens : opensTag t.head? = false := hm
  have hmail : (t.dropWhile isMailChar).head?.any (· != '@') = true := by
    simpa [isReadable, hm, Text.isSpacing] using hread
  cases t with
  | nil => cases hopens
  | cons d u =>
    obtain ⟨s, after, rfl, hs⟩ := head_test h (q := opensAngle) rfl rfl fun _ => hopens
    have hmailless : mailAddress? (s :: after ++ rest) = none := no_mail h hmail
    exact hbehind.cons (u := []) (says_char (by decide)) (.inl rfl) rfl fun r =>
      readOne_angle r prev (no_address hs (after ++ rest)) hmailless (no_html hs (after ++ rest))

variable (hrest : Stops bang rest)
include hrest

theorem visible_head (ht : ∀ y ∈ t.head?, y ≠ ' ' ∧ Text.isSpacing y = false) :
    ∀ s ∈ (c ++ rest).head?, s.isBlank = false := by
  cases t with
  | nil =>
    cases h
    intro s hs
    obtain ⟨d, rfl, hd⟩ := hrest s hs
    rcases hd with hd | ⟨rfl, -⟩
    · simp at hd
      rcases hd with rfl | rfl | rfl | rfl | rfl <;> rfl
    · rfl
  | cons y u =>
    obtain ⟨hy, hspacing⟩ := ht y rfl
    intro s hs
    cases text_begins h with
    | space hsp _ => exact absurd hsp hy
    | line hsp _ => exact absurd hsp hy
    | escape _ _ =>
      obtain rfl : Symbol.char '\\' = s := Option.some.inj hs
      rfl
    | pipe _ _ =>
      obtain rfl : Symbol.pipe = s := Option.some.inj hs
      rfl
    | char _ _ _ _ =>
      obtain rfl : Symbol.char y = s := Option.some.inj hs
      simp [Symbol.isBlank, Symbol.isSpacing, Symbol.isNewline, hspacing]

theorem ampersand_reads {prev : Char} {before : Option Char} (hx : x = '&')
    (hm : isMarkup before x t = false) (hbehind : ReadAs x t c rest) :
    ReadAs prev (x :: t) (.char x :: c) rest := by
  subst hx
  have hno := no_reference h hrest hm
  exact hbehind.cons (u := []) (says_char (by decide)) (.inl rfl) rfl fun r =>
    readOne_ampersand r prev hno

theorem bang_reads {prev : Char} (hx : x = '!') (hline : '\n' ∉ x :: t)
    (hbang : bang = true → x = '!' → t ≠ []) (hbehind : ReadBehind x t c rest) :
    ReadAs prev (x :: t) (.char x :: c) rest := by
  refine hbehind.chunk hline (.inr ⟨hx, ?_⟩)
  cases t with
  | nil =>
    cases h
    intro hhead
    obtain ⟨d, hd, hstop⟩ := hrest _ hhead
    obtain rfl : '[' = d := Symbol.char.inj hd
    rcases hstop with hstop | ⟨-, hb⟩
    · exact absurd hstop (by decide)
    · exact hbang hb hx rfl
  | cons y u =>
    have hopen : isMarkup (some x) y u = false → (y == '[') = false := by
      intro hy
      simpa using (Layout.ne_of_not_isMarkup hy).2.2.2.1
    obtain ⟨s, after, rfl, hs⟩ := head_test h (q := (· == '[')) rfl rfl hopen
    rintro ⟨⟩
    cases hs

end

theorem isSpecial_cases {c : Char} (h : isSpecial c = true) {prev : Option Char} {t : Text}
    (hm : isMarkup prev c t = false) :
    c = '_' ∨ c = '<' ∨ c = '&' ∨ c = '!' ∨ Text.isSpacing c = true := by
  have hne := Layout.ne_of_not_isMarkup hm
  simp only [isSpecial, Bool.or_eq_true, beq_iff_eq] at h
  tauto

/-- A readable text is read back, and what the reader takes of it at once is a front of it. The
induction is on the text, because the reader goes on behind each of its constructs. -/
theorem text_reads {bang : Bool} {t : Text} {before : Option Char}
    (hread : readableFrom before t = true) (hflat : Flat t) {prev : Char} {c rest : Content}
    (hbefore : ∀ d ∈ before, d = ' ' ∨ prev = d) (h : Laid (textInksFrom bang before t) c)
    (hrest : Stops bang rest) : ReadAs prev t c rest ∧ ReadBehind prev t c rest := by
  induction t generalizing before prev c with
  | nil =>
    cases h
    exact ⟨readAs_nil prev rest, (readAs_nil prev rest).behind (hrest.test (by decide))⟩
  | cons x t ih =>
    obtain ⟨hx, ht⟩ := Bool.and_eq_true_iff.mp hread
    have hflat' : Flat t := hflat.stretch (List.suffix_cons x t).isInfix
    have hline : x ≠ '\n' := by
      rintro rfl
      exact hflat.unbroken (by simp)
    have hsecond : x = ' ' → ∀ y ∈ t.head?, y ≠ ' ' ∧ Text.isSpacing y = false := by
      intro hsp y hy
      obtain ⟨u, rfl⟩ := List.head?_eq_some_iff.mp hy
      have hne : y ≠ ' ' := fun he => (List.isChain_cons_cons.mp hflat.apart).1 ⟨hsp, he⟩
      obtain ⟨hyread, -⟩ := Bool.and_eq_true_iff.mp ht
      refine ⟨hne, ?_⟩
      simpa [hne] using (Bool.and_eq_true_iff.mp hyread).1
    cases text_begins h with
    | space hsp hc =>
      obtain ⟨htext, -⟩ := @ih _ ht hflat' ' ' _ (by simp [hsp]) hc
      have hnext := visible_head hc hrest (hsecond hsp)
      subst hsp
      have hall : ReadAs prev (' ' :: t) _ rest :=
        htext.cons (u := []) (says_char hline) (.inl rfl) rfl fun r =>
          readOne_space r prev hnext
      exact ⟨hall, hall.behind (by simp [Symbol.test, isSpecial, Text.isSpacing])⟩
    | @line b _ hsp hc =>
      obtain ⟨htext, -⟩ := @ih _ ht hflat' '\n' _ (by simp [hsp]) hc
      subst hsp
      have hall : ReadAs prev (' ' :: t) _ rest :=
        htext.cons (u := []) .softBreak (.inr ⟨rfl, rfl⟩) rfl fun r =>
          readOne_newline r prev b _
      exact ⟨hall, hall.behind (by simp [Symbol.test])⟩
    | escape hpunctuation hc =>
      obtain ⟨htext, -⟩ := @ih _ ht hflat' x _ (by simp) hc
      have hall : ReadAs prev (x :: t) _ rest :=
        htext.cons (u := [.char x]) (says_char hline) (.inl rfl) rfl fun r =>
          readOne_escape r prev hpunctuation _
      exact ⟨hall, hall.behind (by simp [Symbol.test, isSpecial])⟩
    | pipe hpipe hc =>
      subst hpipe
      obtain ⟨htext, -⟩ := @ih _ ht hflat' '|' _ (by simp) hc
      have hall : ReadAs prev ('|' :: t) _ rest :=
        htext.cons (u := []) (says_char hline) (.inl rfl) rfl fun r => readOne_pipe r prev _
      exact ⟨hall, hall.behind (by simp [Symbol.test])⟩
    | @char after hm hne hbang hc =>
      obtain ⟨htext, hbehind⟩ := @ih _ ht hflat' x _ (by simp) hc
      by_cases hspecial : isSpecial x = true
      · have hall : ReadAs prev (x :: t) (.char x :: after) rest := by
          rcases isSpecial_cases hspecial hm with hsign | hsign | hsign | hsign | hspacing
          · exact underscore_reads hc hsign hbefore hm hx htext
          · exact angle_reads hc hsign hm hx htext
          · exact ampersand_reads hc hrest hsign hm htext
          · exact bang_reads hc hrest hsign hflat.unbroken hbang hbehind
          · -- no white space but a space is readable, and a space would be a gap
            simp [isReadable, hspacing, hne] at hx
        exact ⟨hall, hall.behind (by simp [Symbol.test, hspecial])⟩
      · have hplain : isSpecial x = false := by simpa using hspecial
        exact ⟨hbehind.chunk hflat.unbroken (.inl hplain), hbehind.cons hplain prev⟩

/-- A readable text is read back as spans of text, whatever stands before it and wherever its lines
are broken. -/
theorem prose_reads {bang : Bool} {t : Text} (hread : readable t = true) (hflat : Flat t)
    (prev : Char) {c rest : Content} (h : Laid (textInks bang t) c) (hrest : Stops bang rest) :
    ReadAs prev t c rest :=
  (text_reads hread hflat (by simp) h hrest).1

end CanonMark.Markdown
