import CanonMark.Proofs.Markdown.Leaves
import CanonMark.Proofs.Markdown.Lists
import CanonMark.Text.Punctuation

/-! # Lines that open a block

The marks that open a block, apart from asterisks and backticks, stated as forms of a line. The
reader takes exactly these forms. The layout looks at the first token alone, and still no line that
it begins has one of the forms, whatever follows the token.
-/
namespace CanonMark.Markdown

open Layout (isOrderedMarker isLeadingMarker isAll escapeLineStart isOrderedMarker_iff)

/-- A space, a tab or the end of the line follows. -/
def Parted (after : Text) : Prop := ∀ c ∈ after.head?, Text.isSpaceOrTab c = true

/-- A line that opens a block or, for an underline, makes a heading of the line above it. -/
inductive BlockStart : Text → Prop where
  | bullet {c : Char} {after : Text} : c = '-' ∨ c = '+' → Parted after → BlockStart (c :: after)
  | ordered {digits : Text} {d : Char} {after : Text} : 1 ≤ digits.length → digits.length ≤ 9 →
      (∀ c ∈ digits, Text.isDigit c = true) → d = '.' ∨ d = ')' → Parted after →
      BlockStart (digits ++ d :: after)
  | heading {level : Nat} {after : Text} : 1 ≤ level → level ≤ 6 → Parted after →
      BlockStart (List.replicate level '#' ++ after)
  | quote (after : Text) : BlockStart ('>' :: after)
  | fence (after : Text) : BlockStart ("~~~".toList ++ after)
  | underline {c : Char} {length : Nat} {after : Text} : c = '=' ∨ c = '-' → 1 ≤ length →
      (∀ d ∈ after, Text.isSpaceOrTab d = true) → BlockStart (List.replicate length c ++ after)
  | dashes {after : Text} : (∀ c ∈ after, c = '-' ∨ Text.isSpaceOrTab c = true) →
      2 ≤ after.count '-' → BlockStart ('-' :: after)

/-- What can stand behind the first token of a line: nothing, or a space and any text. -/
def Behind (rest : Text) : Prop := rest = [] ∨ ∃ t, rest = ' ' :: t

theorem Behind.spacing {rest : Text} (h : Behind rest) :
    ∀ c ∈ rest.head?, Text.isSpacing c = true := by
  intro c hc
  rcases h with rfl | ⟨t, rfl⟩
  · cases hc
  · cases hc
    rfl

theorem Parted.spacing {after : Text} (h : Parted after) :
    ∀ c ∈ after.head?, Text.isSpacing c = true :=
  fun c hc => isSpacing_of_isSpaceOrTab (h c hc)

def isStarter (c : Char) : Bool := "-+=#>~".toList.contains c

theorem head_replicate_append {c : Char} {n : Nat} (hn : 1 ≤ n) (t : Text) :
    (List.replicate n c ++ t).head? = some c := by
  obtain ⟨k, rfl⟩ := Nat.exists_eq_add_of_le' hn
  rfl

theorem BlockStart.first {t : Text} (h : BlockStart t) :
    (∃ c, t.head? = some c ∧ isStarter c = true) ∨
      ∃ digits d after, t = digits ++ d :: after ∧ 1 ≤ digits.length ∧
        (∀ c ∈ digits, Text.isDigit c = true) ∧ (d = '.' ∨ d = ')') := by
  cases h with
  | bullet hc _ =>
    refine .inl ⟨_, rfl, ?_⟩
    rcases hc with rfl | rfl
    · decide
    · decide
  | ordered hlo _ hdigits hd _ => exact .inr ⟨_, _, _, rfl, hlo, hdigits, hd⟩
  | heading hlo _ _ => exact .inl ⟨'#', head_replicate_append hlo _, by decide⟩
  | quote after => exact .inl ⟨'>', rfl, by decide⟩
  | fence after => exact .inl ⟨'~', rfl, by decide⟩
  | underline hc hlo _ =>
    refine .inl ⟨_, head_replicate_append hlo _, ?_⟩
    rcases hc with rfl | rfl
    · decide
    · decide
  | dashes _ _ => exact .inl ⟨'-', rfl, by decide⟩

theorem not_starter_of_isDigit {c : Char} (h : Text.isDigit c = true) : isStarter c = false := by
  rw [← Bool.not_eq_true]
  intro hs
  simp only [isStarter, List.contains_iff_mem] at hs
  simp at hs
  rcases hs with rfl | rfl | rfl | rfl | rfl | rfl <;> exact absurd h (by decide)

theorem not_blockStart_backslash (t : Text) : ¬ BlockStart ('\\' :: t) := by
  intro h
  rcases h.first with ⟨c, hc, hs⟩ | ⟨digits, d, after, ht, hlen, hdigits, -⟩
  · cases hc
    exact absurd hs (by decide)
  · cases digits with
    | nil => cases hlen
    | cons c digits =>
      cases ht
      exact absurd (hdigits _ List.mem_cons_self) (by decide)

theorem not_blockStart_digits {digits : Text} (hlen : 1 ≤ digits.length)
    (hdigits : ∀ c ∈ digits, Text.isDigit c = true) (t : Text) :
    ¬ BlockStart (digits ++ '\\' :: t) := by
  intro h
  rcases h.first with ⟨c, hc, hs⟩ | ⟨digits', d, after, ht, -, hdigits', hd⟩
  · cases digits with
    | nil => cases hlen
    | cons e digits =>
      obtain rfl : e = c := by simpa using hc
      rw [not_starter_of_isDigit (hdigits e List.mem_cons_self)] at hs
      cases hs
  · have hleft : (digits ++ '\\' :: t).dropWhile Text.isDigit = '\\' :: t := by
      rw [List.dropWhile_append_of_pos hdigits]
      rfl
    have hright : (digits' ++ d :: after).dropWhile Text.isDigit = d :: after := by
      rw [List.dropWhile_append_of_pos hdigits']
      rcases hd with rfl | rfl
      · rfl
      · rfl
    rw [ht, hright, List.cons.injEq] at hleft
    rcases hd with rfl | rfl
    · exact absurd hleft.1 (by decide)
    · exact absurd hleft.1 (by decide)

theorem isAll_replicate {c : Char} {n : Nat} (hn : 1 ≤ n) :
    isAll c (List.replicate n c) = true := by
  obtain ⟨k, rfl⟩ := Nat.exists_eq_add_of_le' hn
  simp [isAll]

theorem isAll_iff {c : Char} {t : Text} :
    isAll c t = true ↔ t ≠ [] ∧ ∀ d ∈ t, d = c := by
  simp only [isAll, Bool.and_eq_true, Bool.not_eq_true', List.all_eq_true, beq_iff_eq,
    List.isEmpty_eq_false_iff]

def runMarks : Text := "-+=#".toList

theorem isLeadingMarker_iff {t : Text} : isLeadingMarker t = true ↔
    (∃ c ∈ runMarks, isAll c t = true) ∨ t.head? = some '>' ∨ "~~~".toList <+: t := by
  simp [isLeadingMarker, runMarks, or_assoc]

/-- The first token of a line that opens a block is a marker, since none of the forms needs more
than the first word of the line. -/
theorem isMarker_of_blockStart {t : Text} (h : BlockStart t) : isMarker (leadWord t) = true := by
  rw [isMarker, Bool.or_eq_true]
  cases h with
  | @bullet c after hc hafter =>
    have hlead : leadWord ([c] ++ after) = [c] := by
      apply leadWord_append _ hafter.spacing
      rcases hc with rfl | rfl
      · simp [Text.isSpacing]
      · simp [Text.isSpacing]
    have hmark : c ∈ runMarks := by
      rcases hc with rfl | rfl
      · decide
      · decide
    right
    rw [List.singleton_append] at hlead
    rw [hlead]
    exact isLeadingMarker_iff.mpr (.inl ⟨c, hmark, isAll_replicate (Nat.le_refl 1)⟩)
  | @ordered digits d after hlo hhi hdigits hd hafter =>
    have hmarker : isOrderedMarker (digits ++ [d]) = true :=
      isOrderedMarker_iff.mpr ⟨digits, d, rfl, hd, hdigits, hlo, hhi⟩
    left
    rw [List.append_cons, leadWord_append (orderedMarker_not_spacing hmarker) hafter.spacing]
    exact hmarker
  | @heading level after hlo hhi hafter =>
    have hlead : leadWord (List.replicate level '#' ++ after) = List.replicate level '#' := by
      apply leadWord_append _ hafter.spacing
      intro c hc
      rw [List.eq_of_mem_replicate hc]
      rfl
    right
    rw [hlead]
    exact isLeadingMarker_iff.mpr (.inl ⟨'#', by decide, isAll_replicate hlo⟩)
  | quote after =>
    right
    exact isLeadingMarker_iff.mpr (.inr (.inl rfl))
  | fence after =>
    have hpre : "~~~".toList.isPrefixOf (leadWord ("~~~".toList ++ after)) = true :=
      isPrefixOf_leadWord (by simp [Text.isSpacing])
        (List.isPrefixOf_iff_prefix.mpr (List.prefix_append _ _))
    right
    exact isLeadingMarker_iff.mpr (.inr (.inr (List.isPrefixOf_iff_prefix.mp hpre)))
  | @underline c length after hc hlo hafter =>
    have hlead : leadWord (List.replicate length c ++ after) = List.replicate length c := by
      apply leadWord_append
      · intro d hd
        rw [List.eq_of_mem_replicate hd]
        rcases hc with rfl | rfl
        · rfl
        · rfl
      · intro d hd
        exact isSpacing_of_isSpaceOrTab (hafter d (List.mem_of_mem_head? hd))
    have hmark : c ∈ runMarks := by
      rcases hc with rfl | rfl
      · decide
      · decide
    right
    rw [hlead]
    exact isLeadingMarker_iff.mpr (.inl ⟨c, hmark, isAll_replicate hlo⟩)
  | @dashes after hafter _ =>
    have hall : isAll '-' (leadWord ('-' :: after)) = true := by
      apply isAll_leadWord_of_all _ rfl
      intro c hc
      rcases List.mem_cons.mp hc with rfl | hc
      · exact .inl rfl
      · rcases hafter c hc with rfl | hgap
        · exact .inl rfl
        · exact .inr (isSpacing_of_isSpaceOrTab hgap)
    right
    exact isLeadingMarker_iff.mpr (.inl ⟨'-', by decide, hall⟩)

/-- A marker that is not only one character repeated opens a block by itself. -/
theorem blockStart_of_isMarker {t : Text} (h : isMarker t = true)
    (hmixed : ∀ c ∈ runMarks, isAll c t = false) : BlockStart t := by
  rw [isMarker, Bool.or_eq_true] at h
  rcases h with h | h
  · obtain ⟨digits, d, rfl, hd, hdigits, hlo, hhi⟩ := isOrderedMarker_iff.mp h
    apply BlockStart.ordered hlo hhi hdigits hd
    rintro c ⟨⟩
  · rcases isLeadingMarker_iff.mp h with ⟨c, hc, hall⟩ | hquote | ⟨after, rfl⟩
    · rw [hmixed c hc] at hall
      cases hall
    · cases t with
      | nil => cases hquote
      | cons c t =>
        cases hquote
        exact .quote t
    · exact .fence after

theorem isLeadingMarker_first {t : Text} (h : isLeadingMarker t = true) :
    ∃ c after, t = c :: after ∧ isStarter c = true := by
  rcases isLeadingMarker_iff.mp h with ⟨c, hc, hall⟩ | hquote | ⟨after, rfl⟩
  · obtain ⟨hne, hsame⟩ := isAll_iff.mp hall
    cases t with
    | nil => exact absurd rfl hne
    | cons d t =>
      have hstarter : c ∈ runMarks ++ ">~".toList := List.mem_append_left _ hc
      rw [hsame d List.mem_cons_self]
      exact ⟨c, t, rfl, List.contains_iff_mem.mpr hstarter⟩
  · cases t with
    | nil => cases hquote
    | cons c t =>
      cases hquote
      exact ⟨'>', t, rfl, by decide⟩
  · exact ⟨'~', "~~".toList ++ after, rfl, by decide⟩

theorem isAsciiPunctuation_of_isStarter {c : Char} (h : isStarter c = true) :
    Text.isAsciiPunctuation c = true := by
  simp only [isStarter, List.contains_iff_mem] at h
  simp at h
  rcases h with rfl | rfl | rfl | rfl | rfl | rfl <;> decide

def ReadsStart (t : Text) : Prop :=
  (∃ m, listMarker? t = some m ∧ m.1.char ≠ '*') ∨ (headingLevel? t).isSome ∨ t.head? = some '>' ∨
    (∃ length, fence? t = some ('~', length)) ∨ (underlineLevel? t).isSome ∨
    t.head? = some '-' ∧ isThematicBreak t = true

theorem Parted.head_ne {after : Text} (h : Parted after) {c : Char}
    (hc : Text.isSpaceOrTab c = false) : after.head? ≠ some c := by
  intro hhead
  rw [h c hhead] at hc
  cases hc

theorem readsStart_of_blockStart {t : Text} (h : BlockStart t) : ReadsStart t := by
  cases h with
  | @bullet c after hc hafter =>
    have hmarker : listMarker? (c :: after) = some (⟨c⟩, 0, 1) := by
      have hbullet : (c == '-' || c == '+' || c == '*') = true := by
        rcases hc with rfl | rfl
        · decide
        · decide
      rw [listMarker?, if_pos hbullet, Option.filter_some, if_pos]
      exact (Option.all_eq_true _ _).mpr hafter
    refine .inl ⟨_, hmarker, ?_⟩
    rcases hc with rfl | rfl
    · decide
    · decide
  | @ordered digits d after hlo hhi hdigits hd hafter =>
    refine .inl ⟨_, listMarker_number hdigits (List.length_pos_iff.mp hlo) hhi hd hafter, ?_⟩
    rintro rfl
    exact absurd hd (by decide)
  | @heading level after hlo hhi hafter =>
    have hrun : Text.runLength '#' (List.replicate level '#' ++ after) = level :=
      runLength_replicate (hafter.head_ne (by decide)) level
    have hdrop : (List.replicate level '#' ++ after).drop level = after :=
      List.drop_left' List.length_replicate
    have hall : after.head?.all Text.isAsciiBlank = true := by
      rw [Option.all_eq_true]
      intro c hc
      rw [Text.isAsciiBlank, isSpacing_of_isSpaceOrTab (hafter c hc)]
      rfl
    refine .inr (.inl ?_)
    simp [headingLevel?, hrun, hdrop, hall, hlo, hhi]
  | quote after => exact .inr (.inr (.inl rfl))
  | fence after =>
    have hlong : ¬ Text.runLength '~' ('~' :: '~' :: '~' :: after) < 3 := by
      simp [Text.runLength]
    have hfence : fence? ('~' :: '~' :: '~' :: after) =
        some ('~', Text.runLength '~' ('~' :: '~' :: '~' :: after)) := by
      simp only [fence?, if_neg hlong]
      rfl
    exact .inr (.inr (.inr (.inl ⟨_, hfence⟩)))
  | @underline c length after hc hlo hafter =>
    have hrun : Text.runLength c (List.replicate length c ++ after) = length := by
      apply runLength_replicate
      intro hhead
      have hgap := hafter c (List.mem_of_mem_head? hhead)
      rcases hc with rfl | rfl
      · cases hgap
      · cases hgap
    have hblank : isBlankText after = true := by
      rw [isBlankText, List.all_eq_true]
      intro d hd
      exact isSpacing_of_isSpaceOrTab (hafter d hd)
    refine .inr (.inr (.inr (.inr (.inl ?_))))
    obtain ⟨k, rfl⟩ := Nat.exists_eq_add_of_le' hlo
    have hdrop : (List.replicate (k + 1) c ++ after).drop (k + 1) = after :=
      List.drop_left' List.length_replicate
    rw [List.replicate_succ, List.cons_append] at hrun hdrop ⊢
    rw [underlineLevel?, hrun, hdrop, hblank, if_pos]
    · rfl
    · simpa using hc
  | @dashes after hafter hcount =>
    refine .inr (.inr (.inr (.inr (.inr ⟨rfl, ?_⟩))))
    have hall : ('-' :: after).all (fun d => d == '-' || Text.isSpaceOrTab d) = true := by
      simpa using hafter
    have hthree : ('-' :: after).count '-' ≥ 3 := by
      rw [List.count_cons_self]
      omega
    rw [isThematicBreak, hall, decide_eq_true hthree]
    rfl

def OnlyGaps (t : Text) : Prop := ∀ c ∈ t, Text.isAsciiBlank c = true → Text.isSpaceOrTab c = true

theorem replicate_runLength (c : Char) (t : Text) :
    List.replicate (Text.runLength c t) c ++ t.drop (Text.runLength c t) = t := by
  have hpre : List.replicate (Text.runLength c t) c <+: t := replicate_prefix (Nat.le_refl _)
  have hsplit := List.prefix_iff_eq_append.mp hpre
  rwa [List.length_replicate] at hsplit

theorem not_star_of_listMarker {m : ListMark × Nat × Nat} {u : Text}
    (h : listMarker? ('*' :: u) = some m) : m.1.char = '*' := by
  have hbullet : ('*' == '-' || '*' == '+' || '*' == '*') = true := by decide
  rw [listMarker?, if_pos hbullet, Option.filter_eq_some_iff, Option.some_inj] at h
  rw [← h.1]

theorem blockStart_of_readsStart {t : Text} (hgaps : OnlyGaps t) (h : ReadsStart t) :
    BlockStart t := by
  have hspacing : ∀ c ∈ t, Text.isSpacing c = true → Text.isSpaceOrTab c = true := by
    intro c hc hs
    apply hgaps c hc
    rw [Text.isAsciiBlank, hs]
    rfl
  rcases h with ⟨m, hm, hstar⟩ | h | h | ⟨length, h⟩ | h | ⟨hhead, h⟩
  · rcases listMarker_cases hm with ⟨c, u, rfl, hc, hu⟩ | ⟨digits, d, u, rfl, hd, hu⟩
    · have hparted : Parted u := by
        intro x hx
        exact hspacing x (List.mem_cons_of_mem _ (List.mem_of_mem_head? hx)) (hu x hx)
      rcases hc with rfl | rfl | rfl
      · exact .bullet (.inl rfl) hparted
      · exact .bullet (.inr rfl) hparted
      · exact absurd (not_star_of_listMarker hm) hstar
    · have hparted : Parted u := by
        intro x hx
        apply hspacing x _ (hu x hx)
        exact List.mem_append_right _ (List.mem_cons_of_mem _ (List.mem_of_mem_head? hx))
      obtain ⟨digits', d', heq, hmark, hdigits, hlo, hhi⟩ := isOrderedMarker_iff.mp hd
      obtain ⟨rfl, rfl⟩ : digits = digits' ∧ d = d' := by
        simpa using List.append_inj' heq rfl
      exact .ordered hlo hhi hdigits hmark hparted
  · rw [headingLevel?] at h
    simp only [Option.isSome_ite, Bool.and_eq_true, decide_eq_true_eq, Option.all_eq_true] at h
    rw [← replicate_runLength '#' t]
    apply BlockStart.heading h.1.1 h.1.2
    intro c hc
    exact hgaps c (List.mem_of_mem_drop (List.mem_of_mem_head? hc)) (h.2 c hc)
  · cases t with
    | nil => cases h
    | cons c t =>
      cases h
      exact .quote t
  · cases t with
    | nil => cases h
    | cons c t =>
      simp only [fence?] at h
      split at h
      · cases h
      · next hlong =>
        obtain rfl : c = '~' := by
          split at h
          · next hc => simpa using hc
          · split at h
            · cases h
              rfl
            · cases h
        obtain ⟨after, hafter⟩ := replicate_prefix (n := 3) (Nat.le_of_not_lt hlong)
        rw [← hafter]
        exact .fence after
  · cases t with
    | nil => cases h
    | cons c t =>
      simp only [underlineLevel?, Option.isSome_ite, Bool.and_eq_true, Bool.or_eq_true,
        beq_iff_eq] at h
      rw [← replicate_runLength c (c :: t)]
      apply BlockStart.underline h.1
      · simp [Text.runLength]
      · intro d hd
        exact hspacing d (List.mem_of_mem_drop hd) (List.all_eq_true.mp h.2 d hd)
  · cases t with
    | nil => cases hhead
    | cons c t =>
      cases hhead
      simp only [isThematicBreak, Bool.and_eq_true, List.all_eq_true, Bool.or_eq_true, beq_iff_eq,
        decide_eq_true_eq, List.count_cons_self] at h
      apply BlockStart.dashes
      · intro d hd
        exact h.1.2 d (List.mem_cons_of_mem _ hd)
      · omega

/-- The reader takes the forms above and no others, on a line in which only spaces and tabs are
blank. -/
theorem blockStart_iff_readsStart {t : Text} (hgaps : OnlyGaps t) : BlockStart t ↔ ReadsStart t :=
  ⟨readsStart_of_blockStart, blockStart_of_readsStart hgaps⟩

/-- The three ways a token is written at the start of a line. -/
inductive Shielded (token : Text) : Text → Prop where
  | number {digits : Text} {d : Char} : token = digits ++ [d] → d = '.' ∨ d = ')' →
      1 ≤ digits.length → (∀ c ∈ digits, Text.isDigit c = true) →
      Shielded token (digits ++ '\\' :: [d])
  | mark {c : Char} {after : Text} : token = c :: after → isStarter c = true →
      Shielded token ('\\' :: token)
  | plain : isMarker token = false → Shielded token token

theorem shielded_escapeLineStart (token : Text) : Shielded token (escapeLineStart token) := by
  rw [escapeLineStart]
  by_cases hordered : isOrderedMarker token = true
  · obtain ⟨digits, d, rfl, hd, hdigits, hlo, -⟩ := isOrderedMarker_iff.mp hordered
    rw [if_pos hordered, List.dropLast_concat, List.getLast?_concat]
    exact .number rfl hd hlo hdigits
  · rw [if_neg hordered]
    by_cases hleading : isLeadingMarker token = true
    · obtain ⟨c, after, htoken, hc⟩ := isLeadingMarker_first hleading
      rw [if_pos hleading]
      exact .mark htoken hc
    · rw [if_neg hleading]
      apply Shielded.plain
      simp [isMarker, hordered, hleading]

def OpensBlock (line : Text) : Prop :=
  ∃ indent t, line = List.replicate indent ' ' ++ t ∧ indent ≤ 3 ∧ BlockStart t

theorem opensBlock_iff {line : Text} (h : line.head? ≠ some ' ') :
    OpensBlock line ↔ BlockStart line := by
  constructor
  · rintro ⟨indent, t, rfl, -, ht⟩
    cases indent with
    | zero => exact ht
    | succ indent => exact absurd rfl h
  · intro hstart
    exact ⟨0, line, rfl, Nat.zero_le 3, hstart⟩

theorem head_token {token : Text} (hne : token ≠ []) (hblank : ∀ c ∈ token, Text.isBlank c = false)
    (rest : Text) : (token ++ rest).head? ≠ some ' ' := by
  cases token with
  | nil => exact absurd rfl hne
  | cons c token =>
    rintro ⟨⟩
    exact absurd (hblank ' ' List.mem_cons_self) (by decide)

theorem isBlank_of_isAsciiBlank {c : Char} (h : Text.isAsciiBlank c = true) :
    Text.isBlank c = true := by
  simp only [Text.isAsciiBlank, Text.isSpacing, Bool.or_eq_true, beq_iff_eq] at h
  rcases h with ((((rfl | rfl) | rfl) | rfl) | rfl) | rfl <;> decide

theorem onlyGaps_append {token rest : Text} (hblank : ∀ c ∈ token, Text.isBlank c = false)
    (hrest : OnlyGaps rest) : OnlyGaps (token ++ rest) := by
  intro c hc h
  rcases List.mem_append.mp hc with hc | hc
  · have hfalse := hblank c hc
    rw [isBlank_of_isAsciiBlank h] at hfalse
    cases hfalse
  · exact hrest c hc h

theorem leadWord_token {token rest : Text} (hblank : ∀ c ∈ token, Text.isBlank c = false)
    (hrest : Behind rest) : leadWord (token ++ rest) = token := by
  apply leadWord_append _ hrest.spacing
  intro c hc
  rw [← Bool.not_eq_true]
  intro hs
  have hascii : Text.isAsciiBlank c = true := by
    rw [Text.isAsciiBlank, hs]
    rfl
  have hfalse := hblank c hc
  rw [isBlank_of_isAsciiBlank hascii] at hfalse
  cases hfalse

theorem not_blockStart_shielded {token written rest : Text} (h : Shielded token written)
    (hblank : ∀ c ∈ token, Text.isBlank c = false) (hrest : Behind rest) :
    ¬ BlockStart (written ++ rest) := by
  intro hstart
  cases h with
  | number _ _ hlo hdigits =>
    rw [List.append_assoc] at hstart
    exact not_blockStart_digits hlo hdigits _ hstart
  | mark _ _ => exact not_blockStart_backslash _ hstart
  | plain hplain =>
    have hmarker := isMarker_of_blockStart hstart
    rw [leadWord_token hblank hrest, hplain] at hmarker
    cases hmarker

theorem Shielded.blankless {token written : Text} (h : Shielded token written)
    (hblank : ∀ c ∈ token, Text.isBlank c = false) : ∀ c ∈ written, Text.isBlank c = false := by
  intro x hx
  by_cases hslash : x = '\\'
  · rw [hslash]
    decide
  apply hblank
  cases h with
  | number htoken _ _ _ =>
    rw [htoken]
    simpa [hslash] using hx
  | mark _ _ => simpa [hslash] using hx
  | plain _ => exact hx

theorem Shielded.ne_nil {token written : Text} (h : Shielded token written) (hne : token ≠ []) :
    written ≠ [] := by
  cases h with
  | number _ _ _ _ => exact List.append_ne_nil_of_right_ne_nil _ (List.cons_ne_nil _ _)
  | mark _ _ => exact List.cons_ne_nil _ _
  | plain _ => exact hne

theorem Shielded.reversible {token written : Text} (h : Shielded token written) :
    written = token ∨ ∃ before c after, token = before ++ c :: after ∧
      Text.isAsciiPunctuation c = true ∧ written = before ++ '\\' :: c :: after := by
  cases h with
  | @number digits d htoken hd _ _ =>
    refine .inr ⟨digits, d, [], htoken, ?_, rfl⟩
    rcases hd with rfl | rfl
    · decide
    · decide
  | @mark c after htoken hc =>
    refine .inr ⟨[], c, after, htoken, isAsciiPunctuation_of_isStarter hc, ?_⟩
    rw [htoken]
    rfl
  | plain _ => exact .inl rfl

/-- No line that begins with a shielded token opens a block, whatever follows the token, and the
reader finds none there. A token is shielded by one backslash before a character that a backslash
can stand before, and a token that opens no block is shielded only if it is one character repeated:
it could be a heading mark of another length. -/
theorem escapeLineStart_disarms {token : Text} (hne : token ≠ [])
    (hblank : ∀ c ∈ token, Text.isBlank c = false) :
    (∀ rest, Behind rest → ¬ OpensBlock (escapeLineStart token ++ rest) ∧
        (OnlyGaps rest → ¬ ReadsStart (escapeLineStart token ++ rest))) ∧
      (escapeLineStart token = token ∨ ∃ before c after, token = before ++ c :: after ∧
        Text.isAsciiPunctuation c = true ∧
        escapeLineStart token = before ++ '\\' :: c :: after) ∧
      ((∀ rest, Behind rest → ¬ OpensBlock (token ++ rest)) →
        (∀ c ∈ runMarks, ∃ d ∈ token, d ≠ c) → escapeLineStart token = token) := by
  have hshield := shielded_escapeLineStart token
  refine ⟨?_, hshield.reversible, ?_⟩
  · intro rest hrest
    have hwritten := hshield.blankless hblank
    have hnot := not_blockStart_shielded hshield hblank hrest
    constructor
    · rwa [opensBlock_iff (head_token (hshield.ne_nil hne) hwritten rest)]
    · intro hgaps
      rwa [← blockStart_iff_readsStart (onlyGaps_append hwritten hgaps)]
  · intro hopens hmixed
    have hplain : isMarker token = false := by
      rw [← Bool.not_eq_true]
      intro hmarker
      apply hopens [] (.inl rfl)
      rw [opensBlock_iff (head_token hne hblank []), List.append_nil]
      apply blockStart_of_isMarker hmarker
      intro c hc
      obtain ⟨d, hd, hdc⟩ := hmixed c hc
      rw [← Bool.not_eq_true, isAll_iff]
      intro hall
      exact hdc (hall.2 d hd)
    rw [isMarker, Bool.or_eq_false_iff] at hplain
    rw [escapeLineStart, hplain.1, hplain.2]
    rfl

/-- Two dashes make a thematic break with a third one behind them, and get a backslash. A number of
ten digits opens no list and gets none. -/
theorem escapeLineStart_disarms_dashes :
    OpensBlock "-- -".toList ∧ ReadsStart "-- -".toList ∧
      ¬ OpensBlock (escapeLineStart "--".toList ++ " -".toList) ∧
      ¬ ReadsStart (escapeLineStart "--".toList ++ " -".toList) ∧
      (∀ rest, Behind rest → ¬ OpensBlock ("1234567890.".toList ++ rest)) ∧
      escapeLineStart "1234567890.".toList = "1234567890.".toList := by
  have hpair : ∀ c ∈ "--".toList, Text.isBlank c = false := by
    simp [Text.isBlank, Text.blanks, Ranges.holds]
  have hdigits : ∀ c ∈ "1234567890.".toList, Text.isBlank c = false := by
    simp [Text.isBlank, Text.blanks, Ranges.holds]
  have hdashes := escapeLineStart_disarms (by decide : "--".toList ≠ []) hpair
  have hnumber := escapeLineStart_disarms (by decide : "1234567890.".toList ≠ []) hdigits
  have hgaps : ∀ c ∈ "- -".toList, c = '-' ∨ Text.isSpaceOrTab c = true := by
    simp [Text.isSpaceOrTab]
  have hbreak : BlockStart "-- -".toList := .dashes hgaps (by decide)
  have hbehind : Behind " -".toList := .inr ⟨"-".toList, rfl⟩
  have honly : OnlyGaps " -".toList := by
    simp [OnlyGaps, Text.isAsciiBlank, Text.isSpacing, Text.isSpaceOrTab]
  have hfree : ∀ rest, Behind rest → ¬ OpensBlock ("1234567890.".toList ++ rest) :=
    fun rest hrest => (hnumber.1 rest hrest).1
  refine ⟨⟨0, _, rfl, Nat.zero_le 3, hbreak⟩, readsStart_of_blockStart hbreak,
    (hdashes.1 _ hbehind).1, (hdashes.1 _ hbehind).2 honly, hfree, ?_⟩
  apply hnumber.2.2 hfree
  simp [runMarks]

end CanonMark.Markdown
