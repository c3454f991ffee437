import CanonMark.Text.Entity
import Mathlib.Data.List.Basic
import Mathlib.Tactic.Cases

/-! # Escapes and references

A backslash before every character of a class is taken away again by decoding, but a character
reference that the text holds is decoded as well. Main statement: text that is escaped in this way
decodes to itself exactly if it holds no reference.
-/
namespace CanonMark.Text

namespace Entity

theorem names_short (c : Char) : ∀ entry ∈ names c, entry.2.length ≤ 2 := by
  unfold names
  split
  all_goals decide +kernel

theorem named?_length {t meaning : Text} (h : named? t = some meaning) :
    t ≠ [] ∧ meaning.length ≤ 2 := by
  cases t with
  | nil => cases h
  | cons c t =>
    obtain ⟨entry, hfind, rfl⟩ := Option.map_eq_some_iff.mp h
    have hentry := names_short c entry (List.mem_of_find?_eq_some hfind)
    exact ⟨by simp, by simpa using hentry⟩

theorem number?_length {base most : Nat} {p : Char → Bool} {t meaning rest : Text}
    (h : number? base most p t = some (meaning, rest)) :
    meaning.length + rest.length ≤ t.length := by
  unfold number? at h
  dsimp only at h
  split at h
  · cases h
  · split at h
    · next behind hdrop =>
      have hlen := congrArg List.length hdrop
      obtain ⟨rfl, rfl⟩ : _ ∧ _ := by simpa using h
      simp only [List.length_drop, List.length_cons, List.length_nil] at hlen ⊢
      omega
    · cases h

theorem read?_length {t meaning rest : Text} (h : read? t = some (meaning, rest)) :
    meaning.length + rest.length ≤ t.length := by
  unfold read? at h
  split at h
  · have := number?_length h
    simp only [List.length_cons]
    omega
  · have := number?_length h
    simp only [List.length_cons]
    omega
  · have := number?_length h
    simp only [List.length_cons]
    omega
  · dsimp only at h
    split at h
    · next behind hdrop =>
      obtain ⟨found, hfound, hpair⟩ := Option.map_eq_some_iff.mp h
      obtain ⟨rfl, rfl⟩ : found = meaning ∧ behind = rest := by simpa using hpair
      obtain ⟨hne, hshort⟩ := named?_length hfound
      have hpos := List.length_pos_iff.mpr hne
      have hlen := congrArg List.length hdrop
      simp only [List.length_drop, List.length_cons] at hlen
      omega
    · cases h

theorem read?_number {t : Text} (hx : t.head? ≠ some 'x') (hX : t.head? ≠ some 'X') :
    read? ('#' :: t) = number? 10 7 isDigit t := by
  rw [read?]
  · rintro u rfl
    exact hx rfl
  · rintro u rfl
    exact hX rfl

theorem read?_name {t : Text} (h : t.head? ≠ some '#') :
    read? t =
      match t.drop (t.takeWhile isLetterOrDigit).length with
      | ';' :: rest => (named? (t.takeWhile isLetterOrDigit)).map (·, rest)
      | _ => none := by
  unfold read?
  split
  · exact absurd rfl h
  · exact absurd rfl h
  · exact absurd rfl h
  · rfl

end Entity

theorem decodeWith_length (fuel : Nat) (t : Text) : (decodeWith fuel t).length ≤ t.length := by
  fun_induction decodeWith fuel t with
  | case1 => exact Nat.le_refl _
  | case2 => exact Nat.le_refl _
  | case3 fuel c t hc ih =>
    simp only [List.length_cons]
    omega
  | case4 fuel c t hc ih =>
    simp only [List.length_cons] at ih ⊢
    omega
  | case5 fuel t meaning rest hread ih =>
    have := Entity.read?_length hread
    simp only [List.length_append, List.length_cons]
    omega
  | case6 fuel t hread ih =>
    simp only [List.length_cons]
    omega
  | case7 fuel c t _ _ ih =>
    simp only [List.length_cons]
    omega

/-- A backslash before each character of a class. -/
def shield (p : Char → Bool) (t : Text) : Text := t.flatMap fun c => if p c then ['\\', c] else [c]

/-- A class that is shielded so that decoding can undo it: backslashes belong to it, nothing does
that cannot be escaped, and it parts no reference. -/
structure Shielding (p : Char → Bool) : Prop where
  backslash : p '\\' = true
  escapable : ∀ c, p c = true → isAsciiPunctuation c = true
  signs : p '&' = false ∧ p '#' = false ∧ p ';' = false

/-- Whether an ampersand of the text begins a reference. -/
def holdsReference : Text → Bool
  | [] => false
  | c :: t => c == '&' && (Entity.read? t).isSome || holdsReference t

theorem letterOrDigit_not_punctuation {c : Char} (h : isLetterOrDigit c = true) :
    isAsciiPunctuation c = false := by
  simp only [isLetterOrDigit, isLetter, isUpper, isLower, isDigit, isAsciiPunctuation,
    Bool.and_eq_true, Bool.or_eq_true, decide_eq_true_eq, Char.le_def, Bool.or_eq_false_iff,
    Bool.and_eq_false_iff, decide_eq_false_iff_not] at h ⊢
  grind

theorem letterOrDigit_of_hexDigit {c : Char} (h : isHexDigit c = true) :
    isLetterOrDigit c = true := by
  simp only [isHexDigit, isLetterOrDigit, isLetter, isUpper, isLower, isDigit, Bool.and_eq_true,
    Bool.or_eq_true, decide_eq_true_eq, Char.le_def] at h ⊢
  grind

variable {p : Char → Bool}

theorem Shielding.spares (hp : Shielding p) {c : Char} (hc : isAsciiPunctuation c = false) :
    p c = false := by
  cases hpc : p c with
  | false => rfl
  | true =>
    rw [hp.escapable c hpc] at hc
    cases hc

@[simp] theorem shield_nil (p : Char → Bool) : shield p [] = [] := rfl

theorem shield_cons (p : Char → Bool) (c : Char) (t : Text) :
    shield p (c :: t) = (if p c then ['\\', c] else [c]) ++ shield p t := rfl

theorem shield_of_pos {c : Char} (hc : p c = true) (t : Text) :
    shield p (c :: t) = '\\' :: c :: shield p t := by
  rw [shield_cons, if_pos hc]
  rfl

theorem shield_of_neg {c : Char} (hc : p c = false) (t : Text) :
    shield p (c :: t) = c :: shield p t := by
  rw [shield_cons, if_neg (by simp [hc])]
  rfl

theorem head?_shield {c : Char} (hslash : c ≠ '\\') (hc : p c = false) (t : Text) :
    (shield p t).head? = some c ↔ t.head? = some c := by
  cases t with
  | nil => rfl
  | cons d t =>
    cases hd : p d with
    | false => rw [shield_of_neg hd, List.head?_cons, List.head?_cons]
    | true =>
      have hne : d ≠ c := by
        rintro rfl
        rw [hd] at hc
        cases hc
      simp [shield_of_pos hd, hne, hslash.symm]

theorem mem_shield {c : Char} (hslash : c ≠ '\\') (t : Text) : c ∈ shield p t ↔ c ∈ t := by
  induction t with
  | nil => rfl
  | cons d t ih =>
    rw [shield_cons, List.mem_append, ih, List.mem_cons]
    split <;> simp [hslash]

theorem takeWhile_shield (hp : Shielding p) {q : Char → Bool}
    (hq : ∀ c, q c = true → isAsciiPunctuation c = false) (t : Text) :
    (shield p t).takeWhile q = t.takeWhile q ∧
      (shield p t).drop (t.takeWhile q).length = shield p (t.drop (t.takeWhile q).length) := by
  have hslash : q '\\' = false := by
    cases h : q '\\' with
    | false => rfl
    | true => exact absurd (hq _ h) (by decide)
  induction t with
  | nil => exact ⟨rfl, rfl⟩
  | cons c t ih =>
    cases hc : q c with
    | false =>
      have hfirst : ∀ u, (c :: u).takeWhile q = [] := fun u => List.takeWhile_cons_of_neg (by simp [hc])
      rw [hfirst]
      refine ⟨?_, rfl⟩
      cases hpc : p c with
      | false => rw [shield_of_neg hpc, hfirst]
      | true =>
        rw [shield_of_pos hpc]
        exact List.takeWhile_cons_of_neg (by simp [hslash])
    | true =>
      rw [shield_of_neg (hp.spares (hq c hc)), List.takeWhile_cons_of_pos hc, List.takeWhile_cons_of_pos hc, ih.1]
      exact ⟨rfl, ih.2⟩

theorem semicolon_shield (hp : Shielding p) (t : Text) :
    (∃ rest, t = ';' :: rest ∧ shield p t = ';' :: shield p rest) ∨
      t.head? ≠ some ';' ∧ (shield p t).head? ≠ some ';' := by
  by_cases h : t.head? = some ';'
  · obtain ⟨rest, rfl⟩ := List.head?_eq_some_iff.mp h
    exact .inl ⟨rest, rfl, shield_of_neg hp.signs.2.2 rest⟩
  · refine .inr ⟨h, ?_⟩
    rwa [Ne, head?_shield (by decide) hp.signs.2.2]

namespace Entity

theorem number?_shield (hp : Shielding p) (base most : Nat) {q : Char → Bool}
    (hq : ∀ c, q c = true → isAsciiPunctuation c = false) (t : Text) :
    number? base most q (shield p t) = (number? base most q t).map (Prod.map id (shield p)) := by
  obtain ⟨hrun, hrest⟩ := takeWhile_shield hp hq t
  simp only [number?, hrun, hrest]
  split
  · rfl
  · rcases semicolon_shield hp (t.drop (t.takeWhile q).length) with ⟨rest, h, h'⟩ | ⟨h, h'⟩
    · rw [h', h]
      rfl
    · split
      · next he => exact absurd (by rw [he]; rfl) h'
      · split
        · next he => exact absurd (by rw [he]; rfl) h
        · rfl

theorem readName_shield (hp : Shielding p) {t : Text} (h : t.head? ≠ some '#') :
    read? (shield p t) = (read? t).map (Prod.map id (shield p)) := by
  have h' : (shield p t).head? ≠ some '#' := by
    rwa [Ne, head?_shield (by decide) hp.signs.2.1]
  obtain ⟨hrun, hrest⟩ := takeWhile_shield hp (fun _ => letterOrDigit_not_punctuation) t
  rw [read?_name h, read?_name h', hrun, hrest]
  rcases semicolon_shield hp (t.drop (t.takeWhile isLetterOrDigit).length) with
    ⟨rest, hd, hd'⟩ | ⟨hd, hd'⟩
  · rw [hd', hd]
    cases named? (t.takeWhile isLetterOrDigit) <;> rfl
  · split
    · next he => exact absurd (by rw [he]; rfl) hd'
    · split
      · next he => exact absurd (by rw [he]; rfl) hd
      · rfl

theorem read?_shield (hp : Shielding p) (t : Text) :
    read? (shield p t) = (read? t).map (Prod.map id (shield p)) := by
  by_cases hhash : t.head? = some '#'
  · obtain ⟨t, rfl⟩ := List.head?_eq_some_iff.mp hhash
    rw [shield_of_neg hp.signs.2.1]
    have hhex := number?_shield hp 16 6 fun _ hc =>
      letterOrDigit_not_punctuation (letterOrDigit_of_hexDigit hc)
    by_cases hx : t.head? = some 'x'
    · obtain ⟨t, rfl⟩ := List.head?_eq_some_iff.mp hx
      rw [shield_of_neg (hp.spares rfl)]
      exact hhex t
    by_cases hX : t.head? = some 'X'
    · obtain ⟨t, rfl⟩ := List.head?_eq_some_iff.mp hX
      rw [shield_of_neg (hp.spares rfl)]
      exact hhex t
    have hx' : (shield p t).head? ≠ some 'x' := by
      rwa [Ne, head?_shield (by decide) (hp.spares rfl)]
    have hX' : (shield p t).head? ≠ some 'X' := by
      rwa [Ne, head?_shield (by decide) (hp.spares rfl)]
    rw [read?_number hx hX, read?_number hx' hX']
    refine number?_shield hp 10 7 (fun c hc => letterOrDigit_not_punctuation ?_) t
    simp [isLetterOrDigit, hc]
  · exact readName_shield hp hhash

end Entity

theorem decodeWith_escape {c : Char} (hc : isAsciiPunctuation c = true) (fuel : Nat) (t : Text) :
    decodeWith (fuel + 1) ('\\' :: c :: t) = c :: decodeWith fuel t := by
  rw [decodeWith, if_pos hc]

theorem decodeWith_plain {c : Char} (hslash : c ≠ '\\') (hsign : c ≠ '&') (fuel : Nat) (t : Text) :
    decodeWith (fuel + 1) (c :: t) = c :: decodeWith fuel t := by
  rw [decodeWith]
  · rintro d u rfl
    exact absurd rfl hslash
  · exact hsign

/-- With fuel enough, shielded text is decoded to a text that is no longer, and is the same only if
no reference is met. -/
theorem decodeWith_shield (hp : Shielding p) (t : Text) {fuel : Nat}
    (hfuel : (shield p t).length ≤ fuel) :
    (decodeWith fuel (shield p t)).length ≤ t.length ∧
      (decodeWith fuel (shield p t) = t ↔ holdsReference t = false) := by
  -- behind a reference the text goes on at a place further on, so the induction is on its length
  induction hn : t.length using Nat.strongRecOn generalizing t fuel with
  | _ n ih =>
  cases t with
  | nil => cases fuel <;> simp [decodeWith, holdsReference]
  | cons c t =>
    subst hn
    have hlater : ∀ (u : Text) (fuel : Nat), u.length ≤ t.length → (shield p u).length ≤ fuel →
        (decodeWith fuel (shield p u)).length ≤ u.length ∧
          (decodeWith fuel (shield p u) = u ↔ holdsReference u = false) := by
      intro u fuel hu hf
      exact ih u.length (by simp only [List.length_cons]; omega) u hf rfl
    have hlen : (shield p t).length ≤ fuel - 1 ∧ 1 ≤ fuel := by
      rw [shield_cons, List.length_append] at hfuel
      split at hfuel <;> simp only [List.length_cons, List.length_nil] at hfuel <;> omega
    obtain ⟨fuel, rfl⟩ := Nat.exists_eq_add_of_le' hlen.2
    obtain ⟨hshort, hiff⟩ := hlater t fuel (Nat.le_refl _) (by simpa using hlen.1)
    cases hc : p c with
    | true =>
      have hsign : c ≠ '&' := by
        rintro rfl
        rw [hp.signs.1] at hc
        cases hc
      rw [shield_of_pos hc, decodeWith_escape (hp.escapable c hc)]
      simp [holdsReference, hsign, hiff, hshort]
    | false =>
      have hslash : c ≠ '\\' := by
        rintro rfl
        rw [hp.backslash] at hc
        cases hc
      rw [shield_of_neg hc]
      by_cases hsign : c = '&'
      · subst hsign
        have hsame := Entity.read?_shield hp t
        rw [decodeWith]
        cases hread : Entity.read? t with
        | none =>
          rw [hread] at hsame
          simp [holdsReference, hread, hsame, hiff, hshort]
        | some r =>
          obtain ⟨meaning, rest⟩ := r
          rw [hread] at hsame
          have hsmall := Entity.read?_length hread
          have hsmaller := Entity.read?_length hsame
          have hrest := (hlater rest fuel (by omega) (by simp only [id_eq] at hsmaller; omega)).1
          rw [hsame]
          dsimp only [Option.map_some, Prod.map, id_eq]
          have hless : (meaning ++ decodeWith fuel (shield p rest)).length < ('&' :: t).length := by
            simp only [List.length_append, List.length_cons]
            omega
          refine ⟨Nat.le_of_lt hless, ?_⟩
          have hne : meaning ++ decodeWith fuel (shield p rest) ≠ '&' :: t :=
            fun he => absurd (congrArg List.length he) (Nat.ne_of_lt hless)
          simpa [holdsReference, hread] using hne
      · rw [decodeWith_plain hslash hsign]
        simp [holdsReference, hsign, hiff, hshort]

/-- Shielded text decodes to the text exactly if that holds no reference. -/
theorem decode_shield_iff (hp : Shielding p) (t : Text) :
    decode (shield p t) = t ↔ holdsReference t = false :=
  (decodeWith_shield hp t (Nat.le_refl _)).2

end CanonMark.Text
