import CanonMark.Format
import CanonMark.Proofs.Text.Decoding
import Mathlib.Tactic.ByContra

/-! # Destinations and titles read back

A destination is written bare or between angle brackets, and a title between double quotes; what
would end them early has a backslash before it. Nothing is done about ampersands and about
characters that may not stand there at all. Main statement: they are read back exactly if they hold
no character reference, no control character where it is not allowed, and no blank line.
-/
namespace CanonMark.Layout

open Text (shield Shielding holdsReference shield_of_pos shield_of_neg mem_shield head?_shield
  decode_shield_iff)

/-- The characters that no backslash escapes. -/
def free : Text → Text
  | [] => []
  | '\\' :: c :: t => if Text.isAsciiPunctuation c then free t else '\\' :: free (c :: t)
  | c :: t => c :: free t

/-- A mark ends what stands before it here, and does not end it earlier. -/
def EndsAt (mark : Char) (body : Text) : Prop := mark ∉ free body ∧ mark ∈ free (body ++ [mark])

def isControl (c : Char) : Bool := c.toNat < 32 || c.toNat == 127

def isLineEnd (c : Char) : Bool := c == '\n' || c == '\r'

/-- Whether parentheses are balanced behind so many that are open. -/
def balanced : Nat → Text → Bool
  | depth, [] => depth == 0
  | depth, '(' :: t => balanced (depth + 1) t
  | 0, ')' :: _ => false
  | depth + 1, ')' :: t => balanced depth t
  | depth, _ :: t => balanced depth t

/-- A destination as it may be written, and what is written in it. -/
inductive DestinationForm : Text → Text → Prop where
  | bracketed {body : Text} : (∀ c ∈ body, isLineEnd c = false) → '<' ∉ free body →
      EndsAt '>' body → DestinationForm ('<' :: body ++ ['>']) body
  | bare {body : Text} : body ≠ [] → body.head? ≠ some '<' →
      (∀ c ∈ body, c ≠ ' ' ∧ isControl c = false) → balanced 0 (free body) = true →
      DestinationForm body body

/-- Whether a line of the text has nothing on it. The text goes on with something at both ends. -/
def holdsBlankLine : Text → Bool
  | [] => false
  | c :: t =>
    (c == '\n' || c == '\r' && t.head? != some '\n') &&
      (t.dropWhile Text.isSpaceOrTab).head?.any isLineEnd || holdsBlankLine t

/-- A title in double quotes as it may be written, and what is written in it. -/
inductive TitleForm : Text → Text → Prop where
  | quoted {body : Text} : EndsAt '\x22' body → holdsBlankLine body = false →
      TitleForm ('\x22' :: body ++ ['\x22']) body

def isAwkward (c : Char) : Bool := c == ' ' || c == '(' || c == ')' || c == '<' || c == '>'

def needsBrackets (d : Text) : Bool := d.isEmpty || d.any isAwkward

def isBackslash (c : Char) : Bool := c == '\\'
def isAngleMark (c : Char) : Bool := c == '\\' || c == '<' || c == '>'
def isQuoteMark (c : Char) : Bool := c == '\\' || c == '\x22'

theorem shielding_isBackslash : Shielding isBackslash := by
  refine ⟨rfl, ?_, by decide⟩
  intro c hc
  rw [beq_iff_eq.mp hc]
  rfl

theorem shielding_isAngleMark : Shielding isAngleMark := by
  refine ⟨rfl, ?_, by decide⟩
  intro c hc
  simp only [isAngleMark, Bool.or_eq_true, beq_iff_eq] at hc
  rcases hc with (rfl | rfl) | rfl <;> rfl

theorem shielding_isQuoteMark : Shielding isQuoteMark := by
  refine ⟨rfl, ?_, by decide⟩
  intro c hc
  simp only [isQuoteMark, Bool.or_eq_true, beq_iff_eq] at hc
  rcases hc with rfl | rfl <;> rfl

theorem replace_shield {p : Char → Bool} {x : Char} (hx : p x = false) (hslash : x ≠ '\\')
    (t : Text) :
    Text.replace x ['\\', x] (shield p t) = shield (fun c => p c || c == x) t := by
  have happend : ∀ s u : Text, Text.replace x ['\\', x] (s ++ u) =
      Text.replace x ['\\', x] s ++ Text.replace x ['\\', x] u := by simp [Text.replace]
  induction t with
  | nil => rfl
  | cons c t ih =>
    rw [Text.shield_cons, Text.shield_cons, happend, ih]
    by_cases hc : c = x
    · subst hc
      simp [hx, Text.replace]
    · cases hp : p c <;> simp [Text.replace, hc, hslash.symm]

theorem replace_backslash (t : Text) :
    Text.replace '\\' "\\\\".toList t = shield isBackslash t := by
  unfold Text.replace shield
  congr 1
  funext c
  by_cases hc : c = '\\' <;> simp [isBackslash, hc]

theorem forall_mem_shield {p q : Char → Bool} (hq : q '\\' = false) (t : Text) :
    (∀ c ∈ shield p t, q c = false) ↔ ∀ c ∈ t, q c = false := by
  constructor
  · intro h c hmem
    by_cases hc : c = '\\'
    · rw [hc, hq]
    · exact h c ((mem_shield hc t).mpr hmem)
  · intro h c hmem
    by_cases hc : c = '\\'
    · rw [hc, hq]
    · exact h c ((mem_shield hc t).mp hmem)

theorem needsBrackets_shield (d : Text) :
    needsBrackets (shield isBackslash d) = needsBrackets d := by
  have hnone : (shield isBackslash d).isEmpty = d.isEmpty := by
    cases d with
    | nil => rfl
    | cons c d =>
      rw [Text.shield_cons]
      split <;> rfl
  have hany : (shield isBackslash d).any isAwkward = d.any isAwkward := by
    have h := forall_mem_shield (p := isBackslash) (q := isAwkward) rfl d
    rw [Bool.eq_iff_iff, ← not_iff_not, Bool.not_eq_true, Bool.not_eq_true]
    simpa only [List.any_eq_false, Bool.not_eq_true] using h
  rw [needsBrackets, needsBrackets, hnone, hany]

theorem linkDestination_eq (d : Text) :
    linkDestination d =
      if needsBrackets d then '<' :: shield isAngleMark d ++ ['>'] else shield isBackslash d := by
  have hangle : (fun c => (isBackslash c || c == '<') || c == '>') = isAngleMark := rfl
  have hboth : Text.replace '>' "\\>".toList (Text.replace '<' "\\<".toList (shield isBackslash d)) =
      shield isAngleMark d := by
    rw [show "\\<".toList = ['\\', '<'] from rfl, show "\\>".toList = ['\\', '>'] from rfl,
      replace_shield rfl (by decide), replace_shield rfl (by decide), hangle]
  rw [← needsBrackets_shield d, ← hboth, ← replace_backslash]
  rfl

theorem linkTitle_eq {t : Text} (h : t ≠ []) :
    linkTitle t = ' ' :: '\x22' :: shield isQuoteMark t ++ ['\x22'] := by
  have hquote : (fun c => isBackslash c || c == '\x22') = isQuoteMark := rfl
  rw [linkTitle, if_neg (by simpa using h), replace_backslash, replace_shield rfl (by decide), hquote]
  rfl

theorem free_cons {c : Char} (hc : c ≠ '\\') (t : Text) : free (c :: t) = c :: free t := by
  rw [free]
  rintro d u rfl
  exact absurd rfl hc

/-- In shielded text exactly the other characters are free. -/
theorem free_shield {p : Char → Bool} (hp : Shielding p) (t u : Text) :
    free (shield p t ++ u) = t.filter (!p ·) ++ free u := by
  induction t with
  | nil => rfl
  | cons c t ih =>
    cases hc : p c with
    | true =>
      rw [shield_of_pos hc, List.filter_cons_of_neg (by simp [hc]), List.cons_append, List.cons_append,
        free, if_pos (hp.escapable c hc), ih]
    | false =>
      have hslash : c ≠ '\\' := by
        rintro rfl
        rw [hp.backslash] at hc
        cases hc
      rw [shield_of_neg hc, List.filter_cons_of_pos (by simp [hc]), List.cons_append,
        free_cons hslash, ih]
      rfl

theorem free_shield_self {p : Char → Bool} (hp : Shielding p) (t : Text) :
    free (shield p t) = t.filter (!p ·) := by
  have h := free_shield hp t []
  rwa [List.append_nil, free, List.append_nil] at h

theorem endsAt_shield {p : Char → Bool} (hp : Shielding p) {mark : Char} (hslash : mark ≠ '\\')
    (hmark : p mark = true) (t : Text) : EndsAt mark (shield p t) := by
  refine ⟨?_, ?_⟩
  · rw [free_shield_self hp]
    simp [hmark]
  · rw [free_shield hp, free_cons hslash]
    simp

theorem balanced_of_not_mem {t : Text} (hopen : '(' ∉ t) (hclose : ')' ∉ t) :
    balanced 0 t = true := by
  induction t with
  | nil => rfl
  | cons c t ih =>
    rw [List.mem_cons, not_or] at hopen hclose
    rw [balanced]
    · exact ih hopen.2 hclose.2
    · exact Ne.symm hopen.1
    · intro _ hc
      exact absurd hc.symm hclose.1
    · intro _ _ hc
      exact absurd hc.symm hclose.1

theorem dropWhile_shield {p : Char → Bool} (hp : Shielding p) (t : Text) :
    (shield p t).dropWhile Text.isSpaceOrTab = shield p (t.dropWhile Text.isSpaceOrTab) := by
  have hblank : ∀ c, Text.isSpaceOrTab c = true → p c = false := by
    intro c hc
    refine hp.spares ?_
    rcases (by simpa [Text.isSpaceOrTab] using hc : c = ' ' ∨ c = '\t') with rfl | rfl <;> rfl
  induction t with
  | nil => rfl
  | cons c t ih =>
    cases hc : Text.isSpaceOrTab c with
    | true =>
      rw [shield_of_neg (hblank c hc), List.dropWhile_cons_of_pos hc, ih,
        List.dropWhile_cons_of_pos hc]
    | false =>
      rw [List.dropWhile_cons_of_neg (by simp [hc])]
      cases hpc : p c with
      | true =>
        rw [shield_of_pos hpc]
        rfl
      | false => rw [shield_of_neg hpc, List.dropWhile_cons_of_neg (by simp [hc])]

theorem holdsBlankLine_shield {p : Char → Bool} (hp : Shielding p) (t : Text) :
    holdsBlankLine (shield p t) = holdsBlankLine t := by
  have hfeed (u : Text) : (shield p u).head? = some '\n' ↔ u.head? = some '\n' :=
    head?_shield (by decide) (hp.spares rfl) u
  have hreturn (u : Text) : (shield p u).head? = some '\r' ↔ u.head? = some '\r' :=
    head?_shield (by decide) (hp.spares rfl) u
  have hend : ∀ u : Text, (shield p u).head?.any isLineEnd = u.head?.any isLineEnd := by
    intro u
    rw [Bool.eq_iff_iff, Option.any_eq_true, Option.any_eq_true]
    simp only [isLineEnd, Bool.or_eq_true, beq_iff_eq]
    grind
  induction t with
  | nil => rfl
  | cons c t ih =>
    cases hpc : p c with
    | true =>
      have hne : c ≠ '\n' ∧ c ≠ '\r' := by
        constructor <;> rintro rfl <;> rw [hp.spares rfl] at hpc <;> cases hpc
      simp [shield_of_pos hpc, holdsBlankLine, ih, beq_false_of_ne hne.1, beq_false_of_ne hne.2]
    | false =>
      have hsame : ((shield p t).head? != some '\n') = (t.head? != some '\n') := by
        rw [Bool.eq_iff_iff, bne_iff_ne, bne_iff_ne, Ne, Ne, hfeed]
      rw [shield_of_neg hpc, holdsBlankLine, holdsBlankLine, ih, dropWhile_shield hp, hend, hsame]

theorem destinationForm_bracketed {d body : Text} :
    DestinationForm ('<' :: shield isAngleMark d ++ ['>']) body ↔
      body = shield isAngleMark d ∧ ∀ c ∈ d, isLineEnd c = false := by
  rw [← forall_mem_shield (p := isAngleMark) rfl]
  constructor
  · intro h
    generalize hw : '<' :: shield isAngleMark d ++ ['>'] = written at h
    cases h with
    | bracketed hline _ _ =>
      obtain rfl : shield isAngleMark d = body := by simpa using hw
      exact ⟨rfl, hline⟩
    | bare _ hhead => exact absurd (by rw [← hw]; rfl) hhead
  · rintro ⟨rfl, hline⟩
    refine .bracketed hline ?_ (endsAt_shield shielding_isAngleMark (by decide) rfl d)
    rw [free_shield_self shielding_isAngleMark]
    simp [isAngleMark]

theorem destinationForm_bare {d body : Text} (hd : needsBrackets d = false) :
    DestinationForm (shield isBackslash d) body ↔
      body = shield isBackslash d ∧ ∀ c ∈ d, isControl c = false := by
  obtain ⟨hne, hawkward⟩ : d ≠ [] ∧ ∀ c ∈ d, isAwkward c = false := by
    simpa [needsBrackets] using hd
  have hmark {c : Char} (hc : isAwkward c = true) (hslash : c ≠ '\\') : c ∉ shield isBackslash d := by
    intro hmem
    have := hawkward c ((mem_shield hslash d).mp hmem)
    simp [hc] at this
  have hhead : (shield isBackslash d).head? ≠ some '<' := by
    intro h
    exact hmark rfl (by decide) (List.mem_of_mem_head? h)
  rw [← forall_mem_shield (p := isBackslash) rfl]
  constructor
  · intro h
    generalize hw : shield isBackslash d = written at h hhead
    cases h with
    | bracketed => exact absurd rfl hhead
    | bare _ _ hchars _ => exact ⟨rfl, fun c hc => (hchars c hc).2⟩
  · rintro ⟨rfl, hcontrol⟩
    refine .bare ?_ hhead ?_ (balanced_of_not_mem ?_ ?_)
    · intro hnil
      have := needsBrackets_shield d
      rw [hnil, hd] at this
      cases this
    · intro c hc
      refine ⟨?_, hcontrol c hc⟩
      rintro rfl
      exact hmark rfl (by decide) hc
    · rw [free_shield_self shielding_isBackslash]
      intro h
      exact absurd (hawkward _ (List.mem_filter.mp h).1) (by decide)
    · rw [free_shield_self shielding_isBackslash]
      intro h
      exact absurd (hawkward _ (List.mem_filter.mp h).1) (by decide)

theorem titleForm_quoted {t body : Text} :
    TitleForm ('\x22' :: shield isQuoteMark t ++ ['\x22']) body ↔
      body = shield isQuoteMark t ∧ holdsBlankLine t = false := by
  rw [← holdsBlankLine_shield shielding_isQuoteMark t]
  constructor
  · intro h
    generalize hw : '\x22' :: shield isQuoteMark t ++ ['\x22'] = written at h
    cases h with
    | quoted _ hline =>
      obtain rfl : shield isQuoteMark t = body := by simpa using hw
      exact ⟨rfl, hline⟩
  · rintro ⟨rfl, hline⟩
    exact .quoted (endsAt_shield shielding_isQuoteMark (by decide) rfl t) hline

/-- What is written for a destination and for a title is a destination and a title from which these
are decoded, exactly if they hold no reference and nothing that may not stand there. An empty title
is not written. -/
theorem targets_read_back_iff (d t : Text) :
    ((∃ body, DestinationForm (linkDestination d) body ∧ Text.decode body = d) ↔
      holdsReference d = false ∧
        ∀ c ∈ d, (if needsBrackets d then isLineEnd c else isControl c) = false) ∧
    (if t = [] then linkTitle t = []
      else ∃ written, linkTitle t = ' ' :: written ∧
        ((∃ body, TitleForm written body ∧ Text.decode body = t) ↔
          holdsReference t = false ∧ holdsBlankLine t = false)) := by
  constructor
  · rw [linkDestination_eq]
    cases hd : needsBrackets d with
    | true =>
      simp only [if_true, destinationForm_bracketed, and_assoc, exists_eq_left,
        Text.decode_shield_iff shielding_isAngleMark]
      exact and_comm
    | false =>
      simp only [Bool.false_eq_true, if_false, destinationForm_bare hd, and_assoc, exists_eq_left,
        Text.decode_shield_iff shielding_isBackslash]
      exact and_comm
  · split
    · next h => rw [h]; rfl
    · next h =>
      refine ⟨'\x22' :: shield isQuoteMark t ++ ['\x22'], linkTitle_eq h, ?_⟩
      simp only [titleForm_quoted, and_assoc, exists_eq_left,
        Text.decode_shield_iff shielding_isQuoteMark]
      exact and_comm

/-- A reference in a destination is decoded once more whenever the text is formatted again. -/
theorem format_decodes_destination :
    Markdown.parse "[a](&amp;amp;)\n".toList =
        .branch .document [.branch .paragraph
          [.branch (.link "&amp;".toList []) [.ofText "a".toList]]] ∧
      format ⟨80⟩ "[a](&amp;amp;)\n".toList = .ok "[a](&amp;)\n".toList ∧
      format ⟨80⟩ "[a](&amp;)\n".toList = .ok "[a](&)\n".toList := by
  refine ⟨?_, ?_, ?_⟩
  · decide +kernel
  · decide +kernel
  · decide +kernel

end CanonMark.Layout
