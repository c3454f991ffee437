import CanonMark.Markdown.Inline
import CanonMark.Proofs.Layout.Escaping
import CanonMark.Proofs.Layout.Strokes
import CanonMark.Proofs.Markdown.Leaves

/-! # Texts and code spans read back

Where texts and code spans alternate, escapes and backtick runs meet at every boundary. Reading the
markup from left to right gives the same texts and code spans again.
-/
namespace CanonMark.Layout

open Markdown (codeContent)

/-- The content of code up to the next run of exactly `n` backticks, and what stands behind that
run. A run of `seen` backticks stands directly before the text. -/
def codeEnd? (n seen : Nat) : Text → Option (Text × Text)
  | [] => if seen = n then some ([], []) else none
  | c :: t =>
    if c = '\x60' then codeEnd? n (seen + 1) t
    else if seen = n then some ([], c :: t)
    else (codeEnd? n 0 t).map fun (code, rest) => (List.replicate seen '\x60' ++ c :: code, rest)

theorem codeEnd?_length {n seen : Nat} {t code rest : Text}
    (h : codeEnd? n seen t = some (code, rest)) : rest.length ≤ t.length := by
  induction t generalizing seen code with
  | nil =>
    rw [codeEnd?] at h
    split at h
    · obtain ⟨-, rfl⟩ := Prod.mk.inj (Option.some.inj h)
      exact Nat.le_refl _
    · cases h
  | cons c t ih =>
    rw [codeEnd?] at h
    split at h
    · exact Nat.le_succ_of_le (ih h)
    · split at h
      · obtain ⟨-, rfl⟩ := Prod.mk.inj (Option.some.inj h)
        exact Nat.le_refl _
      · obtain ⟨⟨inner, behind⟩, hinner, hpair⟩ := Option.map_eq_some_iff.mp h
        obtain ⟨-, rfl⟩ := Prod.mk.inj hpair
        exact Nat.le_succ_of_le (ih hinner)

def addFirst (c : Char) : List Node → List Node
  | .mk .text l cs :: ns => .mk .text (c :: l) cs :: ns
  | ns => .ofText [c] :: ns

/-- Reads texts and code spans. A backslash before ASCII punctuation stands for that character, and
backticks that are not closed stand for themselves. -/
def readSpans (t : Text) : List Node :=
  match t with
  | [] => []
  | '\\' :: c :: t =>
    if Text.isAsciiPunctuation c then addFirst c (readSpans t)
    else addFirst '\\' (readSpans (c :: t))
  | '\x60' :: t =>
    match h : codeEnd? (Text.runLength '\x60' t + 1) 0 (t.dropWhile (· == '\x60')) with
    | some (code, rest) => .leaf .code (codeContent code) :: readSpans rest
    | none =>
      (List.replicate (Text.runLength '\x60' t + 1) '\x60').foldr addFirst
        (readSpans (t.dropWhile (· == '\x60')))
  | c :: t => addFirst c (readSpans t)
termination_by t.length
decreasing_by
  · simp only [List.length_cons]
    omega
  · simp
  · have hrest := codeEnd?_length h
    have hbehind := (List.dropWhile_suffix (l := t) (· == '\x60')).length_le
    simp only [List.length_cons]
    omega
  · have hbehind := (List.dropWhile_suffix (l := t) (· == '\x60')).length_le
    simp only [List.length_cons]
    omega
  · simp

theorem readSpans_cons {c : Char} (hslash : c ≠ '\\') (htick : c ≠ '\x60') (t : Text) :
    readSpans (c :: t) = addFirst c (readSpans t) := by
  rw [readSpans]
  · rintro d u rfl
    exact absurd rfl hslash
  · exact htick

theorem readSpans_escape {c : Char} (hc : Text.isAsciiPunctuation c = true) (t : Text) :
    readSpans ('\\' :: c :: t) = addFirst c (readSpans t) := by
  rw [readSpans, if_pos hc]

theorem readSpans_code {n : Nat} (hn : 0 < n) {t code rest : Text} (ht : t.head? ≠ some '\x60')
    (h : codeEnd? n 0 t = some (code, rest)) :
    readSpans (List.replicate n '\x60' ++ t) = .leaf .code (codeContent code) :: readSpans rest := by
  obtain ⟨k, rfl⟩ := Nat.exists_eq_add_of_le' hn
  have hdrop : (List.replicate k '\x60' ++ t).dropWhile (· == '\x60') = t := by
    rw [List.dropWhile_append_of_pos (by simp)]
    cases t with
    | nil => rfl
    | cons c t => exact List.dropWhile_cons_of_neg (by simpa using ht)
  rw [List.replicate_succ, List.cons_append, readSpans, Markdown.runLength_replicate ht k, hdrop]
  split
  · next hfound =>
    rw [h] at hfound
    obtain ⟨rfl, rfl⟩ := Prod.mk.inj (Option.some.inj hfound)
    rfl
  · next hnone =>
    rw [h] at hnone
    cases hnone

/-- Escaped text is read as the characters of the text, whatever follows it. -/
theorem readSpans_escapeFrom (prev : Option Char) (t rest : Text) :
    readSpans (escapeFrom prev t ++ rest) = t.foldr addFirst (readSpans rest) := by
  induction t generalizing prev with
  | nil => rfl
  | cons c t ih =>
    rw [escapeFrom, List.foldr_cons]
    split
    · next hm =>
      rw [List.cons_append, List.cons_append, readSpans_escape (punctuation_of_isMarkup hm), ih]
    · next hm =>
      obtain ⟨hslash, -, htick, -, -⟩ := ne_of_not_isMarkup (by simpa using hm)
      rw [List.cons_append, readSpans_cons hslash htick, ih]

theorem foldr_addFirst {t : Text} (ht : t ≠ []) {ns : List Node}
    (hns : ∀ n ∈ ns.head?, n.kind ≠ .text) : t.foldr addFirst ns = .ofText t :: ns := by
  induction t with
  | nil => exact absurd rfl ht
  | cons c t ih =>
    cases t with
    | nil =>
      cases ns with
      | nil => rfl
      | cons n ns =>
        obtain ⟨k, l, cs⟩ := n
        have hk : k ≠ .text := hns (.mk k l cs) rfl
        rw [List.foldr_cons, List.foldr_nil, addFirst]
        rintro l' cs' ns' h
        exact hk (Node.mk.inj (List.cons.inj h).1).1
    | cons d t =>
      rw [List.foldr_cons, ih (by simp)]
      rfl

theorem le_longestRunFrom (c : Char) (current longest : Nat) (t : Text) :
    max current longest ≤ longestRunFrom c current longest t := by
  induction t generalizing current longest with
  | nil => exact Nat.le_refl _
  | cons d t ih =>
    rw [longestRunFrom]
    split
    · have h := ih (current + 1) longest
      omega
    · have h := ih 0 (max current longest)
      omega

theorem longestRunFrom_concat {c d : Char} (hd : d ≠ c) (current longest : Nat) (t : Text) :
    longestRunFrom c current longest (t ++ [d]) = longestRunFrom c current longest t := by
  induction t generalizing current longest with
  | nil => simp [longestRunFrom, hd]
  | cons e t ih =>
    rw [List.cons_append, longestRunFrom, longestRunFrom, ih, ih]

theorem codeEnd?_close {n seen k : Nat} (h : seen + k = n) {rest : Text}
    (hrest : rest.head? ≠ some '\x60') :
    codeEnd? n seen (List.replicate k '\x60' ++ rest) = some ([], rest) := by
  induction k generalizing seen with
  | zero =>
    obtain rfl : seen = n := h
    cases rest with
    | nil => simp [codeEnd?]
    | cons c rest =>
      have hc : c ≠ '\x60' := by simpa using hrest
      simp [codeEnd?, hc]
  | succ k ih =>
    rw [List.replicate_succ, List.cons_append, codeEnd?, if_pos rfl]
    exact ih (by omega)

theorem codeEnd?_body {n seen longest : Nat} {body rest : Text}
    (hrun : longestRunFrom '\x60' seen longest body < n)
    (hlast : (List.replicate seen '\x60' ++ body).getLast? ≠ some '\x60')
    (hrest : rest.head? ≠ some '\x60') :
    codeEnd? n seen (body ++ (List.replicate n '\x60' ++ rest)) =
      some (List.replicate seen '\x60' ++ body, rest) := by
  induction body generalizing seen longest with
  | nil =>
    obtain rfl : seen = 0 := by
      cases seen with
      | zero => rfl
      | succ seen => simp [List.getLast?_replicate] at hlast
    exact codeEnd?_close (Nat.zero_add n) hrest
  | cons c body ih =>
    have hseen := le_longestRunFrom '\x60' seen longest (c :: body)
    rw [longestRunFrom] at hrun
    rw [List.cons_append, codeEnd?]
    by_cases hc : c = '\x60'
    · subst hc
      have hmove : List.replicate seen '\x60' ++ '\x60' :: body =
          List.replicate (seen + 1) '\x60' ++ body := by
        rw [List.replicate_succ', List.append_assoc]
        rfl
      rw [if_pos rfl] at hrun ⊢
      rw [hmove] at hlast ⊢
      exact ih hrun hlast
    · rw [if_neg hc] at hrun
      have hopen := le_longestRunFrom '\x60' 0 (max seen longest) body
      have hbody : (List.replicate 0 '\x60' ++ body).getLast? ≠ some '\x60' := by
        cases body with
        | nil => simp
        | cons d body =>
          rw [List.getLast?_append_cons, List.getLast?_cons_cons] at hlast
          exact hlast
      rw [if_neg hc, if_neg (by omega), ih hrun hbody]
      rfl

/-- What stands between the fences of a code span: it hides no fence, and it is read as the code. -/
structure Fenced (n : Nat) (content body : Text) : Prop where
  pos : 0 < n
  nonempty : body ≠ []
  head : body.head? ≠ some '\x60'
  last : body.getLast? ≠ some '\x60'
  runs : longestRun '\x60' body < n
  content_eq : codeContent body = content

theorem fenced_bare {content : Text} (hne : content ≠ []) (hhead : content.head? ≠ some '\x60')
    (hlast : content.getLast? ≠ some '\x60')
    (hpadded : (content.head? == some ' ' && content.getLast? == some ' ' &&
      content.any (· != ' ')) = false) :
    Fenced (longestRun '\x60' content + 1) content content :=
  ⟨Nat.succ_pos _, hne, hhead, hlast, Nat.lt_succ_self _, by
    rw [codeContent, hpadded, if_neg (by decide)]⟩

theorem fenced_padded {content : Text} (hvisible : content.any (· != ' ') = true) :
    Fenced (longestRun '\x60' content + 1) content (' ' :: content ++ [' ']) := by
  refine ⟨Nat.succ_pos _, by simp, by simp, ?_, ?_, ?_⟩
  · rw [List.getLast?_concat]
    decide
  · have hruns : longestRun '\x60' (' ' :: content ++ [' ']) = longestRun '\x60' content :=
      longestRunFrom_concat (by decide) 0 0 (' ' :: content)
    rw [hruns]
    exact Nat.lt_succ_self _
  · have hsome : (' ' :: content ++ [' ']).any (· != ' ') = true := by simp [hvisible]
    rw [codeContent, hsome, List.getLast?_concat]
    simp

theorem codeSpan_fenced {l : Text} (hl : l ≠ []) : ∃ n body, Fenced n (unbroken l) body ∧
    codeSpan l = List.replicate n '\x60' ++ (body ++ List.replicate n '\x60') := by
  have hne : unbroken l ≠ [] := by simpa [unbroken] using hl
  have hvisible : ∀ c ∈ unbroken l, c ≠ ' ' → (unbroken l).any (· != ' ') = true := by
    intro c hc hspace
    exact List.any_eq_true.mpr ⟨c, hc, by simpa using hspace⟩
  simp only [codeSpan]
  split
  · next h =>
    refine ⟨_, _, fenced_padded ?_, by simp⟩
    rw [Bool.or_eq_true, Bool.or_eq_true, beq_iff_eq, beq_iff_eq] at h
    rcases h with (hhead | hlast) | hpadded
    · exact hvisible _ (List.mem_of_mem_head? hhead) (by decide)
    · exact hvisible _ (List.mem_of_mem_getLast? hlast) (by decide)
    · exact (Bool.and_eq_true_iff.mp hpadded).2
  · next h =>
    rw [Bool.or_eq_true, Bool.or_eq_true, beq_iff_eq, beq_iff_eq, not_or, not_or] at h
    exact ⟨_, _, fenced_bare hne h.1.1 h.1.2 (by simpa using h.2), by simp⟩

theorem readSpans_codeSpan {l : Text} (hl : l ≠ []) {rest : Text} (hrest : rest.head? ≠ some '\x60') :
    readSpans (codeSpan l ++ rest) = .leaf .code (unbroken l) :: readSpans rest := by
  obtain ⟨n, body, hbody, hspan⟩ := codeSpan_fenced hl
  have hend : codeEnd? n 0 (body ++ (List.replicate n '\x60' ++ rest)) = some (body, rest) :=
    codeEnd?_body hbody.runs hbody.last hrest
  have hhead : (body ++ (List.replicate n '\x60' ++ rest)).head? ≠ some '\x60' := by
    rw [List.head?_append_of_ne_nil _ hbody.nonempty]
    exact hbody.head
  rw [hspan, List.append_assoc, List.append_assoc, readSpans_code hbody.pos hhead hend,
    hbody.content_eq]

def spanText (n : Node) : Text :=
  if n.kind = .code then codeSpan n.literal else escape (unbroken n.literal)

theorem compileNode_span {n : Node} (h : n.kind = .text ∨ n.kind = .code) :
    ∃ ms, compileNode false n = .ok ms ∧ ms.map Mark.char = spanText n := by
  obtain ⟨k, l, cs⟩ := n
  rcases h with rfl | rfl
  · exact ⟨_, rfl, map_char_breakable _⟩
  · exact ⟨_, rfl, map_char_solid _⟩

theorem inlineText_spans {ns : List Node} (h : ∀ n ∈ ns, n.kind = .text ∨ n.kind = .code) :
    inlineText ns = .ok (ns.flatMap spanText) := by
  suffices hmarks : ∃ ms, compile ns = .ok ms ∧ ms.map Mark.char = ns.flatMap spanText by
    obtain ⟨ms, hms, htext⟩ := hmarks
    rw [inlineText, hms, ← htext]
    rfl
  induction ns with
  | nil => exact ⟨[], rfl, rfl⟩
  | cons n ns ih =>
    obtain ⟨ms, hms, htext⟩ := compileNode_span (h n (by simp))
    obtain ⟨rest, hrest, hrests⟩ := ih fun m hm => h m (by simp [hm])
    have hlink : ns.head?.any (·.kind.isLink) = false := by
      cases ns with
      | nil => rfl
      | cons m ns =>
        have hm := h m (by simp)
        rcases hm with hm | hm <;> simp [hm, Kind.isLink]
    exact ⟨ms ++ rest, by rw [compile, hlink, hms, hrest], by simp [htext, hrests]⟩

theorem head?_escape {t : Text} (ht : t ≠ []) : ∃ c ∈ (escape t).head?, c ≠ '\x60' := by
  cases h : escape t with
  | nil =>
    have hback := unescaped_escapeFrom none t
    rw [← escape, h] at hback
    exact absurd hback.symm ht
  | cons c u =>
    refine ⟨c, rfl, ?_⟩
    rcases escapeFrom_eq_cons h with ⟨-, -, -, -, rfl, -⟩ | ⟨v, -, hm, -⟩
    · decide
    · exact (ne_of_not_isMarkup hm).2.2.1

/-- The markup of texts and code spans that alternate is read back as the same texts and code spans,
with spaces for line feeds. -/
theorem inlineText_reads_back {ns : List Node}
    (hspans : ∀ n ∈ ns, (n.kind = .text ∨ n.kind = .code) ∧ n.literal ≠ [])
    (halternate : ns.IsChain fun a b => a.kind ≠ b.kind) :
    ∃ t, inlineText ns = .ok t ∧
      readSpans t = ns.map fun n => .leaf n.kind (unbroken n.literal) := by
  refine ⟨ns.flatMap spanText, inlineText_spans fun n hn => (hspans n hn).1, ?_⟩
  induction ns with
  | nil => rw [List.flatMap_nil, readSpans, List.map_nil]
  | cons n ns ih =>
    obtain ⟨hkind, hliteral⟩ := hspans n (by simp)
    have hne : unbroken n.literal ≠ [] := by simpa [unbroken] using hliteral
    have hrest := ih (fun m hm => hspans m (by simp [hm])) halternate.of_cons
    have hneighbour : ∀ m ∈ ns.head?, n.kind ≠ m.kind := by
      intro m hm
      obtain ⟨ms, rfl⟩ := List.head?_eq_some_iff.mp hm
      exact (List.isChain_cons_cons.mp halternate).1
    rw [List.flatMap_cons, List.map_cons]
    rcases hkind with hkind | hkind
    · have hfirst : ∀ m ∈ (readSpans (ns.flatMap spanText)).head?, m.kind ≠ .text := by
        rw [hrest, List.head?_map]
        intro m hm
        obtain ⟨k, hk, rfl⟩ := Option.map_eq_some_iff.mp hm
        exact fun htext => hneighbour k hk (hkind.trans htext.symm)
      rw [spanText, hkind, if_neg (by decide), escape, readSpans_escapeFrom,
        foldr_addFirst hne hfirst, hrest]
      rfl
    · have hnext : (ns.flatMap spanText).head? ≠ some '\x60' := by
        cases ns with
        | nil => simp
        | cons m ns =>
          have hm : m.kind ≠ .code := fun hcode => hneighbour m rfl (hkind.trans hcode.symm)
          have hmne : unbroken m.literal ≠ [] := by simpa [unbroken] using (hspans m (by simp)).2
          obtain ⟨c, hc, htick⟩ := head?_escape hmne
          rw [List.flatMap_cons, spanText, if_neg hm, List.head?_append, Option.mem_def.mp hc]
          simpa using htick
      rw [spanText, if_pos hkind, readSpans_codeSpan hliteral hnext, hrest, hkind]

theorem inlineText_reads_back_backticks :
    inlineText [.ofText "\x60\\".toList, .leaf .code " \x60\n".toList, .ofText "\x60*".toList] =
        .ok "\\\x60\\\\\x60\x60  \x60  \x60\x60\\\x60\\*".toList ∧
      readSpans "\\\x60\\\\\x60\x60  \x60  \x60\x60\\\x60\\*".toList =
        [.ofText "\x60\\".toList, .leaf .code " \x60 ".toList, .ofText "\x60*".toList] := by
  obtain ⟨t, htext, hread⟩ := @inlineText_reads_back
    [.ofText "\x60\\".toList, .leaf .code " \x60\n".toList, .ofText "\x60*".toList]
    (by decide) (by decide)
  have hformed : inlineText
      [.ofText "\x60\\".toList, .leaf .code " \x60\n".toList, .ofText "\x60*".toList] =
        .ok "\\\x60\\\\\x60\x60  \x60  \x60\x60\\\x60\\*".toList := by decide
  obtain rfl := Except.ok.inj (htext.symm.trans hformed)
  exact ⟨hformed, hread⟩

end CanonMark.Layout
