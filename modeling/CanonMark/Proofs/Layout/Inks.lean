import CanonMark.Proofs.Layout.Strokes
import CanonMark.Proofs.Layout.Targets

/-! # How the characters of a run came to be written

A line of a paragraph does not tell which of its characters were text and which are markup. Inks do:
each stands for one character of a run and says how that character is written. The inks of a run are
its marks, and between the gaps they are its words.
-/
namespace CanonMark.Layout

inductive Ink where
  /-- A character of a text, which may still get a backslash at the start of a line. -/
  | plain (c : Char)
  /-- A character of a text, behind a backslash. -/
  | shielded (c : Char)
  /-- A character of markup, of code or of a target. -/
  | fixed (c : Char)
  /-- A space at which a line may be broken. -/
  | gap
  deriving DecidableEq, Repr

namespace Ink

def marks : Ink → List Mark
  | plain c => [.glyph c]
  | shielded c => [.glyph '\\', .glyph c]
  | fixed c => [.glyph c]
  | gap => [.gap]

def text : Ink → Text
  | plain c => [c]
  | shielded c => ['\\', c]
  | fixed c => [c]
  | gap => [' ']

def first : Ink → Char
  | plain c => c
  | shielded _ => '\\'
  | fixed c => c
  | gap => ' '

def last : Ink → Char
  | plain c => c
  | shielded c => c
  | fixed c => c
  | gap => ' '

end Ink

def inkMarks (is : List Ink) : List Mark := is.flatMap Ink.marks

def inkText (is : List Ink) : Text := is.flatMap Ink.text

def fixedInks (t : Text) : List Ink := t.map .fixed

theorem inkMarks_append (is js : List Ink) : inkMarks (is ++ js) = inkMarks is ++ inkMarks js :=
  List.flatMap_append

theorem inkText_append (is js : List Ink) : inkText (is ++ js) = inkText is ++ inkText js :=
  List.flatMap_append

theorem map_char_inkMarks (is : List Ink) : (inkMarks is).map Mark.char = inkText is := by
  have hink : ∀ i : Ink, i.marks.map Mark.char = i.text := by
    intro i
    cases i <;> rfl
  simp [inkMarks, inkText, List.map_flatMap, hink]

theorem inkMarks_fixedInks (t : Text) : inkMarks (fixedInks t) = solid t := by
  simp only [inkMarks, fixedInks, solid, List.flatMap_map, Ink.marks]
  exact List.map_eq_flatMap.symm

@[simp] theorem inkText_fixedInks (t : Text) : inkText (fixedInks t) = t := by
  simp [inkText, fixedInks, List.flatMap_map, Ink.text]

/-- How a character of a text is written. With `bang` a link follows the text, and an exclamation
mark at its end is shielded. -/
def textInk (bang : Bool) (prev : Option Char) (c : Char) (rest : Text) : Ink :=
  if c = ' ' then .gap
  else if isMarkup prev c rest || bang && c == '!' && rest.isEmpty then .shielded c
  else .plain c

def textInksFrom (bang : Bool) (prev : Option Char) : Text → List Ink
  | [] => []
  | c :: t => textInk bang prev c t :: textInksFrom bang (some c) t

def textInks (bang : Bool) (t : Text) : List Ink := textInksFrom bang none t

theorem mem_textInks {bang : Bool} {t : Text} {i : Ink} (h : i ∈ textInks bang t) :
    ∃ prev c rest, i = textInk bang prev c rest := by
  have hfrom : ∀ (u : Text) (prev : Option Char), i ∈ textInksFrom bang prev u →
      ∃ prev c rest, i = textInk bang prev c rest := by
    intro u
    induction u with
    | nil => exact fun _ h => by cases h
    | cons c u ih =>
      intro prev h
      rcases List.mem_cons.mp h with h | h
      · exact ⟨prev, c, u, h⟩
      · exact ih _ h
  exact hfrom t none h

theorem fixed_not_mem_textInks (bang : Bool) (t : Text) (c : Char) : .fixed c ∉ textInks bang t := by
  intro h
  obtain ⟨prev, d, rest, hink⟩ := mem_textInks h
  rw [textInk] at hink
  split at hink
  · cases hink
  · split at hink <;> cases hink

theorem escapeFrom_ne_nil (prev : Option Char) {t : Text} (ht : t ≠ []) : escapeFrom prev t ≠ [] := by
  obtain ⟨c, u, rfl⟩ := List.exists_cons_of_ne_nil ht
  rw [escapeFrom]
  split <;> simp

theorem shieldBang_append (bang : Bool) (s : Text) {t : Text} (ht : t ≠ []) :
    shieldBang bang (s ++ t) = s ++ shieldBang bang t := by
  rw [shieldBang, shieldBang, List.getLast?_append_of_ne_nil s ht, List.dropLast_append_of_ne_nil ht]
  split
  · exact List.append_assoc s _ _
  · rfl

theorem marks_textInk_cons (bang : Bool) (prev : Option Char) (c : Char) {t : Text} (ht : t ≠ []) :
    (textInk bang prev c t).marks = breakable (if isMarkup prev c t then ['\\', c] else [c]) := by
  by_cases hspace : c = ' '
  · subst hspace
    rw [isMarkup_space]
    rfl
  · by_cases hm : isMarkup prev c t = true
    · simp [textInk, Ink.marks, breakable, hspace, hm]
    · simp [textInk, Ink.marks, breakable, hspace, hm, ht]

theorem marks_textInk_last (bang : Bool) (prev : Option Char) (c : Char) :
    (textInk bang prev c []).marks = breakable (shieldBang bang (escapeFrom prev [c])) := by
  by_cases hspace : c = ' '
  · subst hspace
    rw [escapeFrom, isMarkup_space]
    cases bang <;> rfl
  · by_cases hm : isMarkup prev c [] = true
    · have hbang : c ≠ '!' := by
        rintro rfl
        cases hm
      cases bang <;> simp [textInk, Ink.marks, breakable, shieldBang, escapeFrom, hspace, hm, hbang]
    · by_cases hbang : c = '!'
      · subst hbang
        cases bang <;> rfl
      · cases bang <;> simp [textInk, Ink.marks, breakable, shieldBang, escapeFrom, hspace, hm, hbang]

theorem inkMarks_textInksFrom (bang : Bool) (prev : Option Char) (t : Text) :
    inkMarks (textInksFrom bang prev t) = breakable (shieldBang bang (escapeFrom prev t)) := by
  induction t generalizing prev with
  | nil => cases bang <;> rfl
  | cons c t ih =>
    have hcons : inkMarks (textInksFrom bang prev (c :: t)) =
        (textInk bang prev c t).marks ++ inkMarks (textInksFrom bang (some c) t) := rfl
    rw [hcons, ih]
    by_cases ht : t = []
    · subst ht
      rw [marks_textInk_last]
      cases bang <;> exact List.append_nil _
    · have hescape : escapeFrom prev (c :: t) =
          (if isMarkup prev c t then ['\\', c] else [c]) ++ escapeFrom (some c) t := by
        rw [escapeFrom]
        split <;> rfl
      rw [hescape, shieldBang_append bang _ (escapeFrom_ne_nil _ ht), marks_textInk_cons bang prev c ht]
      exact List.map_append.symm

theorem inkMarks_textInks (bang : Bool) (t : Text) :
    inkMarks (textInks bang t) = breakable (shieldBang bang (escape t)) :=
  inkMarks_textInksFrom bang none t

def words : List Ink → List (List Ink)
  | [] => [[]]
  | .gap :: is => [] :: words is
  | i :: is =>
    match words is with
    | [] => [[i]]
    | w :: ws => (i :: w) :: ws

def joined : List (List Ink) → List Ink
  | [] => []
  | [w] => w
  | w :: ws => w ++ .gap :: joined ws

/-- No gap stands at an end or beside another one. -/
def Evened (is : List Ink) : Prop := ∀ w ∈ words is, w ≠ []

instance (is : List Ink) : Decidable (Evened is) :=
  inferInstanceAs (Decidable (∀ w ∈ words is, w ≠ []))

theorem words_ne_nil (is : List Ink) : words is ≠ [] := by
  induction is with
  | nil => simp [words]
  | cons i is ih =>
    cases hw : words is with
    | nil => exact absurd hw ih
    | cons w ws => cases i <;> simp [words, hw]

theorem words_cons {i : Ink} (hi : i ≠ .gap) {is w : List Ink} {ws : List (List Ink)}
    (h : words is = w :: ws) : words (i :: is) = (i :: w) :: ws := by
  cases i with
  | gap => exact absurd rfl hi
  | _ => simp only [words, h]

theorem joined_cons (w : List Ink) {ws : List (List Ink)} (h : ws ≠ []) :
    joined (w :: ws) = w ++ .gap :: joined ws := by
  cases ws with
  | nil => exact absurd rfl h
  | cons v ws => rfl

theorem joined_words (is : List Ink) : joined (words is) = is := by
  induction is with
  | nil => rfl
  | cons i is ih =>
    by_cases hi : i = .gap
    · subst hi
      rw [words, joined_cons [] (words_ne_nil is), ih]
      rfl
    · obtain ⟨w, ws, hw⟩ := List.exists_cons_of_ne_nil (words_ne_nil is)
      rw [hw] at ih
      rw [words_cons hi hw]
      cases ws with
      | nil => exact congrArg (i :: ·) ih
      | cons v ws => exact congrArg (i :: ·) ih

theorem gap_not_mem_words (is : List Ink) : ∀ w ∈ words is, .gap ∉ w := by
  induction is with
  | nil => simp [words]
  | cons i is ih =>
    by_cases hi : i = .gap
    · subst hi
      intro w hw
      rcases List.mem_cons.mp hw with rfl | hw
      · simp
      · exact ih w hw
    · obtain ⟨v, vs, hv⟩ := List.exists_cons_of_ne_nil (words_ne_nil is)
      rw [hv] at ih
      rw [words_cons hi hv]
      intro w hw
      rcases List.mem_cons.mp hw with rfl | hw
      · rw [List.mem_cons, not_or]
        exact ⟨fun he => hi he.symm, ih v (by simp)⟩
      · exact ih w (by simp [hw])

theorem inkMarks_word {w : List Ink} (h : .gap ∉ w) : inkMarks w = solid (inkText w) := by
  induction w with
  | nil => rfl
  | cons i w ih =>
    rw [List.mem_cons, not_or] at h
    have hrest := ih h.2
    have hone : i.marks = solid i.text := by
      cases i with
      | gap => exact absurd rfl h.1
      | _ => rfl
    have hcons : inkMarks (i :: w) = i.marks ++ inkMarks w := rfl
    rw [hcons, hone, hrest]
    simp [solid, inkText]

theorem segments_solid (t : Text) : segments (solid t) = [t] := by
  have h : segments (solid t ++ []) = [t ++ []] := segments_solid_append t rfl
  simpa using h

theorem segments_joined {ws : List (List Ink)} (hne : ws ≠ []) (h : ∀ w ∈ ws, .gap ∉ w) :
    segments (inkMarks (joined ws)) = ws.map inkText := by
  induction ws with
  | nil => exact absurd rfl hne
  | cons w ws ih =>
    have hw := inkMarks_word (h w (by simp))
    by_cases hws : ws = []
    · subst hws
      rw [joined, hw, segments_solid]
      rfl
    · have hrest := ih hws fun v hv => h v (by simp [hv])
      have hgap : inkMarks (.gap :: joined ws) = .gap :: inkMarks (joined ws) := rfl
      rw [joined_cons w hws, inkMarks_append, hgap, segments_append_gap, hw, segments_solid, hrest]
      rfl

theorem inkText_ne_nil {is : List Ink} (h : is ≠ []) : inkText is ≠ [] := by
  obtain ⟨i, js, rfl⟩ := List.exists_cons_of_ne_nil h
  cases i <;> simp [inkText, Ink.text]

theorem Evened.tokens_eq {is : List Ink} (h : Evened is) :
    tokens (inkMarks is) = (words is).map inkText := by
  have hsegments := segments_joined (words_ne_nil is) (gap_not_mem_words is)
  rw [joined_words] at hsegments
  rw [tokens, hsegments, List.filter_eq_self]
  intro t ht
  obtain ⟨w, hw, rfl⟩ := List.mem_map.mp ht
  simpa using inkText_ne_nil (h w hw)

theorem Evened.spaced_tokens_eq {is : List Ink} (h : Evened is) :
    spaced (tokens (inkMarks is)) = inkMarks is := by
  have hspaced : ∀ ws : List (List Ink), ws ≠ [] → (∀ w ∈ ws, .gap ∉ w) →
      spaced (ws.map inkText) = inkMarks (joined ws) := by
    intro ws
    induction ws with
    | nil => exact fun hne => absurd rfl hne
    | cons w ws ih =>
      intro _ hgap
      have hw := inkMarks_word (hgap w (by simp))
      by_cases hws : ws = []
      · subst hws
        rw [joined, hw]
        rfl
      · have hrest := ih hws fun v hv => hgap v (by simp [hv])
        obtain ⟨v, vs, rfl⟩ := List.exists_cons_of_ne_nil hws
        rw [joined_cons w hws, inkMarks_append, hw, List.map_cons, List.map_cons, spaced]
        · exact congrArg (solid (inkText w) ++ .gap :: ·) hrest
        · simp
  rw [h.tokens_eq, hspaced _ (words_ne_nil is) (gap_not_mem_words is), joined_words]

def isBare (destination title : Text) (cs : List Node) : Bool :=
  match inlineTokens cs with
  | .ok words => title.isEmpty && Text.join [' '] words == destination && isAutolink destination
  | .error _ => false

def delimitedInks (delimiter : Text) (cs : List Node) : List Ink :=
  fixedInks delimiter ++ textInks false (flatten (cs.flatMap Node.literal)) ++ fixedInks delimiter

def titleInk (c : Char) : Ink :=
  if isQuoteMark c then .shielded c else if c = ' ' then .gap else .plain c

/-- A line may be broken at the spaces of a title, and its next word may get a backslash there. -/
def titleInks (title : Text) : List Ink :=
  if title.isEmpty then [] else [.gap, .fixed '\x22'] ++ title.map titleInk ++ [.fixed '\x22']

def tailInks (destination title : Text) : List Ink :=
  fixedInks "](".toList ++ fixedInks (linkDestination destination) ++ titleInks title ++
    fixedInks [')']

mutual
def nodeInks (beforeLink : Bool) : Node → List Ink
  | .mk .text l _ => textInks beforeLink (flatten l)
  | .mk .emphasis _ cs => delimitedInks ['*'] cs
  | .mk .strong _ cs => delimitedInks ['*', '*'] cs
  | .mk .code l _ => fixedInks (codeSpan l)
  | .mk (.link destination title) _ cs =>
    if isBare destination title cs then fixedInks ('<' :: destination ++ ['>'])
    else fixedInks ['['] ++ runInks cs ++ tailInks destination title
  | .mk (.image destination title) _ cs =>
    fixedInks "![".toList ++ textInks false (trimFlatten (Node.shownAll cs)) ++
      tailInks destination title
  | _ => []

def runInks : List Node → List Ink
  | [] => []
  | n :: ns => nodeInks (ns.head?.any (·.kind.isLink)) n ++ runInks ns
end

theorem inkMarks_titleInk (title : Text) :
    inkMarks (title.map titleInk) = breakable (Text.shield isQuoteMark title) := by
  induction title with
  | nil => rfl
  | cons c t ih =>
    have hcons : inkMarks ((c :: t).map titleInk) = (titleInk c).marks ++ inkMarks (t.map titleInk) :=
      rfl
    rw [hcons, ih]
    cases hc : isQuoteMark c with
    | true =>
      have hspace : c ≠ ' ' := by
        rintro rfl
        cases hc
      rw [Text.shield_of_pos hc, titleInk, if_pos hc]
      simp [breakable, Ink.marks, hspace]
    | false =>
      rw [Text.shield_of_neg hc, titleInk, if_neg (by simp [hc])]
      by_cases hspace : c = ' '
      · simp [breakable, Ink.marks, hspace]
      · simp [breakable, Ink.marks, hspace]

theorem inkMarks_titleInks (title : Text) :
    inkMarks (titleInks title) = breakable (linkTitle title) := by
  by_cases hnil : title = []
  · subst hnil
    rfl
  · have hempty : title.isEmpty = false := by simpa using hnil
    rw [titleInks, hempty, if_neg (by simp), inkMarks_append, inkMarks_append, inkMarks_titleInk,
      linkTitle_eq hnil]
    simp [breakable, inkMarks, Ink.marks]

theorem inkMarks_tailInks (destination title : Text) :
    inkMarks (tailInks destination title) = linkTail destination title := by
  rw [tailInks, inkMarks_append, inkMarks_append, inkMarks_append, inkMarks_titleInks,
    inkMarks_fixedInks, inkMarks_fixedInks, inkMarks_fixedInks, linkTail]
  rfl

end CanonMark.Layout
