import CanonMark.Proofs.Layout.Escaping
import CanonMark.Proofs.Layout.LineBreaks
import CanonMark.Proofs.Markdown.Leaves

/-! # Headings read back

Hashes are not escaped with the rest of a text. A last word of nothing but hashes would be read as
the end of the heading, and gets one backslash, whatever escapes stand before it. The line then has
no closing hashes and no spaces at its end, and undoing the escapes gives the text.
-/
namespace CanonMark.Layout

/-- Drops the hashes at the end, unless something other than a space stands before them. -/
def withoutClosing (t : Text) : Text :=
  let front := t.rdropWhile (· == '#')
  if front.getLast?.all (· == ' ') then front else t

/-- The text without the backslashes that stand before ASCII punctuation. -/
def unescapePunctuation : Text → Text
  | '\\' :: c :: t =>
    if Text.isAsciiPunctuation c then c :: unescapePunctuation t
    else '\\' :: unescapePunctuation (c :: t)
  | c :: t => c :: unescapePunctuation t
  | [] => []

def readHeading (line : Text) : Nat × Text :=
  let level := Text.runLength '#' line
  let content := (line.drop level).dropWhile (· == ' ')
  (level, unescapePunctuation ((withoutClosing content).rdropWhile (· == ' ')))

theorem rdropWhile_of_getLast? {c : Char} {t : Text} (h : t.getLast? ≠ some c) :
    t.rdropWhile (· == c) = t := by
  rw [List.rdropWhile_eq_self_iff]
  intro hne hlast
  exact h (by rw [List.getLast?_eq_some_getLast hne, beq_iff_eq.mp hlast])

theorem exists_hashes (t : Text) :
    ∃ front n, t = front ++ List.replicate n '#' ∧ front.getLast? ≠ some '#' := by
  have hhashes : t.rtakeWhile (· == '#') =
      List.replicate (t.rtakeWhile (· == '#')).length '#' := by
    apply List.eq_replicate_of_mem
    intro c hc
    simpa using List.mem_rtakeWhile_imp hc
  refine ⟨t.rdropWhile (· == '#'), (t.rtakeWhile (· == '#')).length, ?_, ?_⟩
  · rw [← hhashes, List.rdropWhile_append_rtakeWhile]
  · intro hlast
    exact absurd (Text.getLast?_dropEndWhile hlast) (by decide)

theorem withoutClosing_hashes {front : Text} (h : front.getLast? ≠ some '#') (n : Nat) :
    withoutClosing (front ++ List.replicate n '#') =
      if front.getLast?.all (· == ' ') then front else front ++ List.replicate n '#' := by
  have hfront : (front ++ List.replicate n '#').rdropWhile (· == '#') = front := by
    induction n with
    | zero => rw [List.replicate_zero, List.append_nil, rdropWhile_of_getLast? h]
    | succ n ih =>
      rw [List.replicate_succ', ← List.append_assoc, List.rdropWhile_concat_pos _ _ _ (by decide),
        ih]
  simp only [withoutClosing, hfront]

theorem shieldHashes_hashes {front : Text} (h : front.getLast? ≠ some '#') (n : Nat) :
    shieldHashes (front ++ List.replicate n '#') =
      if 0 < n ∧ front.getLast?.all (· == ' ') then front ++ '\\' :: List.replicate n '#'
      else front ++ List.replicate n '#' := by
  have hword : ((front ++ List.replicate n '#').reverse.takeWhile (· != ' ')).reverse =
      front.rtakeWhile (· != ' ') ++ List.replicate n '#' := by
    simp [List.rtakeWhile]
  simp only [shieldHashes, hword]
  by_cases hspace : front.getLast?.all (· == ' ') = true
  · have hnone : front.rtakeWhile (· != ' ') = [] := by
      rw [List.rtakeWhile_eq_nil_iff]
      intro hne
      simpa [List.getLast?_eq_some_getLast hne] using hspace
    cases n with
    | zero => simp [hnone]
    | succ n => simp [hnone, hspace]
  · have hone : ¬ (0 < n ∧ front.getLast?.all (· == ' ') = true) := fun hboth => hspace hboth.2
    rw [if_neg hone]
    rcases front.eq_nil_or_concat with rfl | ⟨v, c, rfl⟩
    · exact absurd rfl hspace
    · -- the character before the hashes is one of the word
      have hc : (c == ' ') = false := by simpa using hspace
      have hhash : (c == '#') = false := by simpa using h
      simp [hc, hhash, bne]

theorem shieldHashes_cases (t : Text) :
    (∃ front after, t = front ++ '#' :: after ∧ shieldHashes t = front ++ '\\' :: '#' :: after) ∨
      shieldHashes t = t := by
  obtain ⟨front, n, rfl, hlast⟩ := exists_hashes t
  rw [shieldHashes_hashes hlast]
  split
  · next h =>
    obtain ⟨k, rfl⟩ := Nat.exists_eq_add_of_le' h.1
    exact .inl ⟨front, List.replicate k '#', by simp [List.replicate_succ]⟩
  · exact .inr rfl

theorem withoutClosing_shieldHashes (t : Text) :
    withoutClosing (shieldHashes t) = shieldHashes t := by
  obtain ⟨front, n, rfl, hlast⟩ := exists_hashes t
  rw [shieldHashes_hashes hlast]
  split
  · have hslash : (front ++ ['\\']).getLast? = some '\\' := List.getLast?_concat
    have hshape : front ++ '\\' :: List.replicate n '#' =
        (front ++ ['\\']) ++ List.replicate n '#' := by simp
    rw [hshape, withoutClosing_hashes (by rw [hslash]; decide), hslash]
    rfl
  · next h =>
    rw [withoutClosing_hashes hlast]
    split
    · next hspace =>
      -- no hashes at all, since the space before them would have had them shielded
      obtain rfl : n = 0 := by
        by_contra hn
        exact h ⟨Nat.pos_of_ne_zero hn, hspace⟩
      exact (List.append_nil front).symm
    · rfl

theorem getLast?_escapeFrom (prev : Option Char) (t : Text) :
    (escapeFrom prev t).getLast? = t.getLast? := by
  induction t generalizing prev with
  | nil => rfl
  | cons c t ih =>
    rw [escapeFrom]
    split
    · rw [List.getLast?_cons_cons, List.getLast?_cons, ih, List.getLast?_cons]
    · rw [List.getLast?_cons, ih, List.getLast?_cons]

theorem head?_shieldHashes {t : Text} (h : t.head? ≠ some ' ') :
    (shieldHashes t).head? ≠ some ' ' := by
  rcases shieldHashes_cases t with ⟨front, after, rfl, hshielded⟩ | hsame
  · rw [hshielded]
    cases front with
    | nil => simp
    | cons c front => exact h
  · rwa [hsame]

theorem getLast?_shieldHashes (t : Text) : (shieldHashes t).getLast? = t.getLast? := by
  rcases shieldHashes_cases t with ⟨front, after, rfl, hshielded⟩ | hsame
  · rw [hshielded]
    simp [List.getLast?_cons]
  · rw [hsame]

theorem head?_trimFlatten (t : Text) : (trimFlatten t).head? ≠ some ' ' := by
  intro hhead
  have hkept : Text.isBlank ' ' = false := Text.head?_strip hhead
  exact absurd hkept (by decide)

theorem getLast?_trimFlatten (t : Text) : (trimFlatten t).getLast? ≠ some ' ' := by
  intro hlast
  have hkept : Text.isBlank ' ' = false := Text.getLast?_dropEndWhile hlast
  exact absurd hkept (by decide)

theorem ends_shieldHashes (t : Text) :
    (shieldHashes (escape (trimFlatten t))).head? ≠ some ' ' ∧
      (shieldHashes (escape (trimFlatten t))).getLast? ≠ some ' ' := by
  constructor
  · apply head?_shieldHashes
    rw [escape, Ne, head?_escapeFrom_space]
    exact head?_trimFlatten t
  · rw [getLast?_shieldHashes, escape, getLast?_escapeFrom]
    exact getLast?_trimFlatten t

theorem unescapePunctuation_cons {c : Char} (hc : c ≠ '\\') (t : Text) :
    unescapePunctuation (c :: t) = c :: unescapePunctuation t := by
  rw [unescapePunctuation]
  rintro d u rfl rfl
  exact hc rfl

theorem unescapePunctuation_escape {c : Char} (hc : Text.isAsciiPunctuation c = true) (t : Text) :
    unescapePunctuation ('\\' :: c :: t) = c :: unescapePunctuation t := by
  rw [unescapePunctuation, if_pos hc]

theorem unescapePunctuation_escapeFrom (prev : Option Char) (t : Text) :
    unescapePunctuation (escapeFrom prev t) = t := by
  induction t generalizing prev with
  | nil => rfl
  | cons c t ih =>
    rw [escapeFrom]
    split
    · next hm => rw [unescapePunctuation_escape (punctuation_of_isMarkup hm), ih]
    · next hm =>
      rw [unescapePunctuation_cons (ne_of_not_isMarkup (by simpa using hm)).1, ih]

/-- A hash is never escaped with the text, so one more backslash before it is an escape as well. -/
theorem unescapePunctuation_hash {prev : Option Char} {t front after : Text}
    (h : escapeFrom prev t = front ++ '#' :: after) :
    unescapePunctuation (front ++ '\\' :: '#' :: after) = t := by
  induction t generalizing prev front with
  | nil => simp [escapeFrom] at h
  | cons c t ih =>
    rw [escapeFrom] at h
    split at h
    · next hm =>
      rcases front with _ | ⟨x, _ | ⟨y, front⟩⟩
      · simp at h
      · obtain ⟨-, rfl, -⟩ : '\\' = x ∧ c = '#' ∧ escapeFrom (some c) t = after := by simpa using h
        cases hm
      · obtain ⟨rfl, rfl, hrest⟩ : '\\' = x ∧ c = y ∧
            escapeFrom (some c) t = front ++ '#' :: after := by simpa using h
        rw [List.cons_append, List.cons_append,
          unescapePunctuation_escape (punctuation_of_isMarkup hm), ih hrest]
    · next hm =>
      cases front with
      | nil =>
        obtain ⟨rfl, rfl⟩ : c = '#' ∧ escapeFrom (some c) t = after := by simpa using h
        rw [List.nil_append, unescapePunctuation_escape (by decide), unescapePunctuation_escapeFrom]
      | cons x front =>
        obtain ⟨rfl, hrest⟩ : c = x ∧ escapeFrom (some c) t = front ++ '#' :: after := by
          simpa using h
        rw [List.cons_append, unescapePunctuation_cons (ne_of_not_isMarkup (by simpa using hm)).1,
          ih hrest]

theorem unescapePunctuation_shieldHashes (t : Text) :
    unescapePunctuation (shieldHashes (escape t)) = t := by
  rcases shieldHashes_cases (escape t) with ⟨front, after, hsplit, hshielded⟩ | hsame
  · rw [hshielded]
    exact unescapePunctuation_hash hsplit
  · rw [hsame]
    exact unescapePunctuation_escapeFrom none t

theorem newline_not_mem_headingLine (level : Nat) (text : Text) :
    '\n' ∉ headingLine level text := by
  have hescaped : '\n' ∉ escape (trimFlatten text) :=
    newline_not_mem_escapeFrom none (flat_trimFlatten text).unbroken
  have hshielded : '\n' ∉ shieldHashes (escape (trimFlatten text)) := by
    rcases shieldHashes_cases (escape (trimFlatten text)) with ⟨front, after, hsplit, heq⟩ | heq
    · rw [hsplit] at hescaped
      rw [heq]
      simpa using hescaped
    · rwa [heq]
  rw [headingLine, List.mem_append, not_or]
  refine ⟨by simp, ?_⟩
  split
  · simp
  · simpa using hshielded

theorem readHeading_headingLine (level : Nat) (text : Text) :
    readHeading (headingLine level text) = (level, trimFlatten text) := by
  obtain ⟨hhead, hlast⟩ := ends_shieldHashes text
  have hunescaped := unescapePunctuation_shieldHashes (trimFlatten text)
  have hopen := withoutClosing_shieldHashes (escape (trimFlatten text))
  simp only [headingLine]
  generalize shieldHashes (escape (trimFlatten text)) = content at hhead hlast hunescaped hopen
  have hrun : Text.runLength '#' (List.replicate level '#' ++
      if content.isEmpty then [] else ' ' :: content) = level := by
    apply Markdown.runLength_replicate
    split <;> simp
  have hbehind : (if content.isEmpty then [] else ' ' :: content).dropWhile (· == ' ') =
      content := by
    cases content with
    | nil => rfl
    | cons c t =>
      have hc : c ≠ ' ' := by simpa using hhead
      simp [hc]
  rw [readHeading, hrun, List.drop_left' List.length_replicate, hbehind, hopen,
    rdropWhile_of_getLast? hlast, hunescaped]

/-- A heading with texts of any kind is one line, from which its level and its text are read. -/
theorem heading_reads_back (cols level : Nat) (l : Text) {cs : List Node} (h : ∀ c ∈ cs, c.isText) :
    ∃ line, block cols (.mk (.heading level) l cs) = .ok (line ++ ['\n', '\n']) ∧ '\n' ∉ line ∧
      readHeading line = (level, trimFlatten (cs.flatMap Node.literal)) := by
  refine ⟨headingLine level (literals cs), ?_, newline_not_mem_headingLine _ _,
    readHeading_headingLine _ _⟩
  rw [block, heading_eq level h]
  simp

/-- Texts that need every step of reading: blanks at both ends, escapes, and hashes that become a
word only where two texts meet. -/
def hashedTexts : List Node :=
  [.ofText "\u3000 \\* a ".toList, .ofText "\n#".toList, .ofText "#\t".toList]

theorem heading_reads_back_hashedTexts :
    (∀ c ∈ hashedTexts, c.isText) ∧
      block 80 (.mk (.heading 3) [] hashedTexts) = .ok "### \\\\\\* a \\##\n\n".toList ∧
      ∃ line, block 80 (.mk (.heading 3) [] hashedTexts) = .ok (line ++ ['\n', '\n']) ∧
        '\n' ∉ line ∧
        readHeading line = (3, trimFlatten (hashedTexts.flatMap Node.literal)) := by
  have htexts : ∀ c ∈ hashedTexts, c.isText := by decide
  exact ⟨htexts, by decide +kernel, heading_reads_back 80 3 [] htexts⟩

end CanonMark.Layout
