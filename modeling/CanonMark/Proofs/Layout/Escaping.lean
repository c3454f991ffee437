import CanonMark.Proofs.Layout.Reflow
import CanonMark.Text.Punctuation
import Mathlib.Tactic.ByContra

/-! # Escaped text holds no markup

Whether a character gets a backslash is decided on the text as it was given, by its neighbours or by
the reference that it begins. A reader meets the escaped text, in which backslashes stand between
those neighbours. It finds no character there that it would take for markup.
-/
namespace CanonMark.Layout

inductive ReferenceBody : Text → Prop where
  | decimal {digits : Text} : 1 ≤ digits.length → digits.length ≤ 7 →
      (∀ d ∈ digits, Text.isDigit d = true) → ReferenceBody ('#' :: digits)
  | hexadecimal {x : Char} {digits : Text} : x = 'x' ∨ x = 'X' → 1 ≤ digits.length →
      digits.length ≤ 6 → (∀ d ∈ digits, Text.isHexDigit d = true) →
      ReferenceBody ('#' :: x :: digits)
  | named {c : Char} {name : Text} : Text.isLetter c = true → 1 ≤ name.length →
      name.length ≤ 31 → (∀ d ∈ name, Text.isLetterOrDigit d = true) → ReferenceBody (c :: name)

/-- Whether a reference begins with the ampersand before this text. -/
def BeginsReference (t : Text) : Prop := ∃ body rest, t = body ++ ';' :: rest ∧ ReferenceBody body

/-- Reading a text with every backslash taking the character behind it: what has been read, and what
is left. -/
inductive Scans (t : Text) : Text → Text → Prop where
  | start : Scans t [] t
  | plain {before c after} : Scans t before (c :: after) → c ≠ '\\' →
      Scans t (before ++ [c]) after
  | escaped {before c after} : Scans t before ('\\' :: c :: after) →
      Scans t (before ++ ['\\', c]) after

/-- A character that no backslash takes, between what stands before and behind it, is not markup. A
backslash is what it should be, an escape. -/
structure Inert (before : Text) (c : Char) (after : Text) : Prop where
  backslash : c = '\\' → ∃ d ∈ after.head?, Text.isAsciiPunctuation d = true
  delimiter : c ≠ '*' ∧ c ≠ '\x60' ∧ c ≠ '[' ∧ c ≠ ']'
  underscore : c = '_' → (∃ d ∈ before.getLast?, Text.isAlphanumeric d = true) ∧
    ∃ d ∈ after.head?, Text.isAlphanumeric d = true
  angle : c = '<' → ∃ d ∈ after.head?,
    Text.isLetterOrDigit d = false ∧ d ≠ '/' ∧ d ≠ '!' ∧ d ≠ '?'
  ampersand : c = '&' → ¬ BeginsReference after

def unescaped : Text → Text
  | '\\' :: c :: t => c :: unescaped t
  | c :: t => c :: unescaped t
  | [] => []

theorem endsReference_append {p : Char → Bool} (hp : p ';' = false) {least most : Nat}
    {body : Text} (hleast : least ≤ body.length) (hmost : body.length ≤ most)
    (hbody : ∀ d ∈ body, p d = true) (rest : Text) :
    endsReference least most p (body ++ ';' :: rest) = true := by
  have htake : (body ++ ';' :: rest).takeWhile p = body := by
    rw [List.takeWhile_append_of_pos hbody, List.takeWhile_cons_of_neg (by simp [hp]),
      List.append_nil]
  simp [endsReference, htake, hleast, hmost]

/-- Escaping knows every form of a reference. -/
theorem BeginsReference.isReference {t : Text} (h : BeginsReference t) :
    isReference t = true := by
  obtain ⟨body, rest, rfl, hbody⟩ := h
  cases hbody with
  | @decimal digits hleast hmost hdigits =>
    have hhead : ∀ x, Text.isDigit x = false → (digits ++ ';' :: rest).head? ≠ some x := by
      intro x hx hhead
      cases digits with
      | nil => simp at hleast
      | cons d digits =>
        obtain rfl : d = x := Option.some.inj hhead
        rw [hdigits d (by simp)] at hx
        cases hx
    rw [List.cons_append, isReference_number (hhead 'x' (by decide)) (hhead 'X' (by decide))]
    exact endsReference_append (by decide) hleast hmost hdigits rest
  | @hexadecimal x digits hx hleast hmost hdigits =>
    have hends := endsReference_append (p := Text.isHexDigit) (by decide) hleast hmost hdigits rest
    rcases hx with rfl | rfl <;> exact hends
  | @named c name hc hleast hmost hname =>
    have hhash : c ≠ '#' := by
      rintro rfl
      exact absurd hc (by decide)
    rw [List.cons_append, isReference_name hhash, hc, Bool.true_and]
    exact endsReference_append (by decide) hleast hmost hname rest

theorem ReferenceBody.no_backslash {body : Text} (h : ReferenceBody body) : '\\' ∉ body := by
  have hclass : ∀ {p : Char → Bool} {ds : Text}, p '\\' = false → (∀ d ∈ ds, p d = true) →
      '\\' ∉ ds := by
    intro p ds hp hds hmem
    rw [hds _ hmem] at hp
    cases hp
  cases h with
  | decimal _ _ hds => simpa using hclass (by decide) hds
  | hexadecimal hx _ _ hds =>
    have hne := hclass (by decide) hds
    rcases hx with rfl | rfl <;> simpa using hne
  | named hc _ _ hds =>
    have hne := hclass (by decide) hds
    rw [List.mem_cons, not_or]
    refine ⟨?_, hne⟩
    rintro rfl
    exact absurd hc (by decide)

def markupSigns : Text := ['\\', '*', '\x60', '[', ']', '_', '<', '&']

theorem mem_of_isMarkup {prev : Option Char} {c : Char} {rest : Text}
    (h : isMarkup prev c rest = true) : c ∈ markupSigns := by
  by_contra hc
  simp only [markupSigns, List.mem_cons, List.not_mem_nil, or_false, not_or] at hc
  simp [isMarkup, hc] at h

theorem punctuation_of_isMarkup {prev : Option Char} {c : Char} {rest : Text}
    (h : isMarkup prev c rest = true) : Text.isAsciiPunctuation c = true := by
  have hall : markupSigns.all Text.isAsciiPunctuation = true := by decide +kernel
  exact List.all_eq_true.mp hall c (mem_of_isMarkup h)

theorem isMarkup_of_isAlphanumeric {c : Char} (h : Text.isAlphanumeric c = true)
    (prev : Option Char) (rest : Text) : isMarkup prev c rest = false := by
  have hall : markupSigns.all (!Text.isAlphanumeric ·) = true := by decide +kernel
  by_contra hm
  have hsign := List.all_eq_true.mp hall c (mem_of_isMarkup (by simpa using hm))
  simp [h] at hsign

theorem ne_of_not_isMarkup {prev : Option Char} {c : Char} {rest : Text}
    (h : isMarkup prev c rest = false) :
    c ≠ '\\' ∧ c ≠ '*' ∧ c ≠ '\x60' ∧ c ≠ '[' ∧ c ≠ ']' := by
  refine ⟨?_, ?_, ?_, ?_, ?_⟩ <;>
    · rintro rfl
      cases h

theorem not_mem_escapeFrom {x : Char} (hx : x ≠ '\\') (prev : Option Char) {t : Text} (h : x ∉ t) :
    x ∉ escapeFrom prev t := by
  induction t generalizing prev with
  | nil => exact h
  | cons c t ih =>
    rw [List.mem_cons, not_or] at h
    have hrest := ih (some c) h.2
    rw [escapeFrom]
    split
    · simp [hx, h.1, hrest]
    · simp [h.1, hrest]

theorem escapeFrom_of_not_mem {prev : Option Char} {t : Text} (h : '\\' ∉ escapeFrom prev t) :
    escapeFrom prev t = t := by
  induction t generalizing prev with
  | nil => rfl
  | cons c t ih =>
    rw [escapeFrom] at h ⊢
    split at h
    · simp at h
    · next hm =>
      rw [List.mem_cons, not_or] at h
      rw [if_neg hm, ih h.2]

theorem length_le_escapeFrom (prev : Option Char) (t : Text) :
    t.length ≤ (escapeFrom prev t).length := by
  induction t generalizing prev with
  | nil => exact Nat.le_refl _
  | cons c t ih =>
    have hrest := ih (some c)
    rw [escapeFrom]
    split
    · simp only [List.length_cons]
      omega
    · simp only [List.length_cons]
      omega

theorem not_mem_of_escapeFrom_eq {prev : Option Char} {t : Text} (h : escapeFrom prev t = t) :
    '\\' ∉ t ∧ '*' ∉ t ∧ '\x60' ∉ t ∧ '[' ∉ t := by
  induction t generalizing prev with
  | nil => simp
  | cons c t ih =>
    rw [escapeFrom] at h
    split at h
    · -- an escape makes the text longer
      have hlonger := length_le_escapeFrom (some c) t
      have hlength := congrArg List.length h
      simp only [List.length_cons] at hlength
      omega
    · next hm =>
      obtain ⟨hslash, hstar, htick, hopen, -⟩ := ne_of_not_isMarkup (by simpa using hm)
      obtain ⟨hslash', hstar', htick', hopen'⟩ := ih (List.cons.inj h).2
      simp only [List.mem_cons, not_or]
      exact ⟨⟨hslash.symm, hslash'⟩, ⟨hstar.symm, hstar'⟩, ⟨htick.symm, htick'⟩,
        ⟨hopen.symm, hopen'⟩⟩

theorem escapeFrom_spaces {t : Text} (h : ∀ c ∈ t, c = ' ') (prev : Option Char) :
    escapeFrom prev t = t := by
  induction t generalizing prev with
  | nil => rfl
  | cons c t ih =>
    obtain ⟨rfl, ht⟩ := List.forall_mem_cons.mp h
    rw [escapeFrom, isMarkup_space, ih ht]
    rfl

theorem mem_escapeFrom {x : Char} {t : Text} (h : x ∈ t) (prev : Option Char) :
    x ∈ escapeFrom prev t := by
  induction t generalizing prev with
  | nil => exact h
  | cons c t ih =>
    rw [escapeFrom]
    rcases List.mem_cons.mp h with rfl | h
    · split <;> simp
    · split <;> simp [ih h]

theorem escapeFrom_eq_cons {prev : Option Char} {t : Text} {c : Char} {after : Text}
    (h : escapeFrom prev t = c :: after) :
    (∃ d u, t = d :: u ∧ isMarkup prev d u = true ∧ c = '\\' ∧
      after = d :: escapeFrom (some d) u) ∨
    ∃ u, t = c :: u ∧ isMarkup prev c u = false ∧ after = escapeFrom (some c) u := by
  cases t with
  | nil => cases h
  | cons d u =>
    rw [escapeFrom] at h
    split at h
    · next hm =>
      obtain ⟨rfl, rfl⟩ := List.cons.inj h
      exact .inl ⟨d, u, rfl, hm, rfl, rfl⟩
    · next hm =>
      obtain ⟨rfl, rfl⟩ := List.cons.inj h
      exact .inr ⟨u, rfl, by simpa using hm, rfl⟩

theorem escapeFrom_eq_append {prev : Option Char} {t body rest : Text}
    (h : escapeFrom prev t = body ++ rest) (hbody : '\\' ∉ body) : ∃ u, t = body ++ u := by
  induction body generalizing prev t with
  | nil => exact ⟨t, rfl⟩
  | cons c body ih =>
    rw [List.mem_cons, not_or] at hbody
    rcases escapeFrom_eq_cons h with ⟨d, u, -, -, hc, -⟩ | ⟨u, rfl, -, hafter⟩
    · exact absurd hc.symm hbody.1
    · obtain ⟨v, rfl⟩ := ih hafter.symm hbody.2
      exact ⟨v, rfl⟩

/-- Escaping does not make a reference. -/
theorem BeginsReference.of_escapeFrom {prev : Option Char} {t : Text}
    (h : BeginsReference (escapeFrom prev t)) : BeginsReference t := by
  obtain ⟨body, rest, ht, hbody⟩ := h
  have hsemicolon : '\\' ∉ body ++ [';'] := by simpa using hbody.no_backslash
  have hsplit : escapeFrom prev t = (body ++ [';']) ++ rest := by simpa using ht
  obtain ⟨u, rfl⟩ := escapeFrom_eq_append hsplit hsemicolon
  exact ⟨body, u, by simp, hbody⟩

theorem head?_escapeFrom_alphanumeric {prev : Option Char} {t : Text} {d : Char}
    (ht : d ∈ t.head?) (hd : Text.isAlphanumeric d = true) : d ∈ (escapeFrom prev t).head? := by
  obtain ⟨u, rfl⟩ := List.head?_eq_some_iff.mp ht
  rw [escapeFrom, isMarkup_of_isAlphanumeric hd]
  rfl

theorem opensTag_escapeFrom (prev : Option Char) {t : Text} (h : opensTag t.head? = false) :
    opensTag (escapeFrom prev t).head? = false := by
  cases t with
  | nil => exact h
  | cons d u =>
    rw [escapeFrom]
    split
    · rfl
    · exact h

theorem inert_escapeFrom {before t : Text} {c : Char} {after : Text}
    (h : escapeFrom before.getLast? t = c :: after) : Inert before c after := by
  rcases escapeFrom_eq_cons h with ⟨d, u, rfl, hm, rfl, rfl⟩ | ⟨u, rfl, hm, rfl⟩
  · have hpunctuation := punctuation_of_isMarkup hm
    refine ⟨fun _ => ⟨d, rfl, hpunctuation⟩, by decide, ?_, ?_, ?_⟩ <;>
      exact fun hne => absurd hne (by decide)
  · obtain ⟨hslash, hdelimiter⟩ := ne_of_not_isMarkup hm
    refine ⟨fun hc => absurd hc hslash, hdelimiter, ?_, ?_, ?_⟩
    · rintro rfl
      have hsides : (∃ d ∈ before.getLast?, Text.isAlphanumeric d = true) ∧
          ∃ d ∈ u.head?, Text.isAlphanumeric d = true := by
        simpa [isMarkup, Option.any_eq_true] using hm
      obtain ⟨hleft, d, hd, halphanumeric⟩ := hsides
      exact ⟨hleft, d, head?_escapeFrom_alphanumeric hd halphanumeric, halphanumeric⟩
    · rintro rfl
      have hopens : opensTag u.head? = false := hm
      have hafter := opensTag_escapeFrom (some '<') hopens
      cases hhead : (escapeFrom (some '<') u).head? with
      | none =>
        rw [hhead] at hafter
        cases hafter
      | some d =>
        rw [hhead] at hafter
        exact ⟨d, rfl, by simpa [opensTag, and_assoc] using hafter⟩
    · rintro rfl hreference
      have hno : isReference u = false := hm
      rw [hreference.of_escapeFrom.isReference] at hno
      cases hno

theorem unescaped_cons {c : Char} (hc : c ≠ '\\') (t : Text) :
    unescaped (c :: t) = c :: unescaped t := by
  rw [unescaped]
  rintro d u rfl rfl
  exact hc rfl

theorem unescaped_escapeFrom (prev : Option Char) (t : Text) : unescaped (escapeFrom prev t) = t := by
  induction t generalizing prev with
  | nil => rfl
  | cons c t ih =>
    rw [escapeFrom]
    split
    · rw [unescaped, ih]
    · next hm => rw [unescaped_cons (ne_of_not_isMarkup (by simpa using hm)).1, ih]

/-- Wherever a reader of escaped text stands, what is left is the escaped form of the rest of the
text behind the character that was read last. -/
theorem Scans.rest_escaped {t before after : Text} (h : Scans (escape t) before after) :
    ∃ u, after = escapeFrom before.getLast? u := by
  induction h with
  | start => exact ⟨t, rfl⟩
  | @plain before c after _ hc ih =>
    obtain ⟨u, hafter⟩ := ih
    rcases escapeFrom_eq_cons hafter.symm with ⟨d, v, -, -, hslash, -⟩ | ⟨v, -, -, rfl⟩
    · exact absurd hslash hc
    · exact ⟨v, by rw [List.getLast?_concat]⟩
  | @escaped before c after _ ih =>
    obtain ⟨u, hafter⟩ := ih
    rcases escapeFrom_eq_cons hafter.symm with ⟨d, v, -, -, -, hd⟩ | ⟨v, -, hm, -⟩
    · obtain ⟨rfl, rfl⟩ := List.cons.inj hd
      exact ⟨v, by simp⟩
    · cases hm

/-- Escaped text is the text with backslashes put in, and whatever a reader of it meets is inert. -/
theorem escape_leaves_no_markup (t : Text) : unescaped (escape t) = t ∧
    ∀ before c after, Scans (escape t) before (c :: after) → Inert before c after := by
  refine ⟨unescaped_escapeFrom none t, fun before c after h => ?_⟩
  obtain ⟨u, hafter⟩ := h.rest_escaped
  exact inert_escapeFrom hafter.symm

theorem escape_leaves_no_markup_ampersand :
    Scans (escape "*&a_;<b".toList) "\\*".toList "&a\\_;\\<b".toList ∧
      Inert "\\*".toList '&' "a\\_;\\<b".toList := by
  have hscan : Scans (escape "*&a_;<b".toList) "\\*".toList "&a\\_;\\<b".toList :=
    @Scans.escaped _ [] '*' _ .start
  exact ⟨hscan, (escape_leaves_no_markup _).2 _ _ _ hscan⟩

end CanonMark.Layout
