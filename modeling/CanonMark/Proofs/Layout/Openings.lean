import CanonMark.Proofs.Layout.Greedy

/-! # What lines begin with

A flow has one margin for its first line and one for every later line. The first one is given up
when a token is written, and not when a line ends. So a run of calls that ends lines before it
writes a token begins all of them with the first margin, and the line of the first token too.
-/
namespace CanonMark.Layout

inductive Call where
  | write (token : Text)
  | writeAll (tokens : List Text)
  | newline
  | terminate
  deriving DecidableEq, Repr

namespace Call

/-- The tokens that a call writes: by itself an empty one counts, among others it is left out. -/
def tokens : Call → List Text
  | .write t => [t]
  | .writeAll ts => ts.filter (!·.isEmpty)
  | .newline => []
  | .terminate => []

def OneLine (c : Call) : Prop := ∀ t ∈ c.tokens, '\n' ∉ t

instance (c : Call) : Decidable c.OneLine := inferInstanceAs (Decidable (∀ t ∈ c.tokens, '\n' ∉ t))

end Call

namespace Flow

def call (w : Flow) : Call → Text × Flow
  | .write t => w.write t
  | .writeAll ts => w.writeAll ts
  | .newline => w.newline
  | .terminate => w.terminate

def run (w : Flow) : List Call → Text × Flow
  | [] => ([], w)
  | c :: cs =>
    let (added, w') := w.call c
    let (more, w'') := w'.run cs
    (added ++ more, w'')

end Flow

/-- What calls on a fresh flow write, with the end of a last line that has none yet. -/
def written (cols : Nat) (margin : Margin) (calls : List Call) : Text :=
  let (text, w) := (Flow.start cols margin).run calls
  text ++ w.terminate.1

/-- How many lines are ended before a token is written. -/
def blanksBefore (calls : List Call) : Nat :=
  (calls.takeWhile (·.tokens.isEmpty)).count .newline

def opened (margin : Margin) : List Text → List Text
  | [] => []
  | b :: bs => (margin.first ++ b) :: bs.map (margin.later ++ ·)

def OpensOnce (margin : Margin) (t : Text) : Prop :=
  ∃ bodies : List Text, (∀ b ∈ bodies, '\n' ∉ b) ∧ t = unlines (opened margin bodies)

theorem opened_concat (margin : Margin) (bs : List Text) :
    ∃ m, ∀ b, opened margin (bs ++ [b]) = opened margin bs ++ [m ++ b] := by
  cases bs with
  | nil => exact ⟨margin.first, fun b => rfl⟩
  | cons c bs => exact ⟨margin.later, fun b => by simp [opened]⟩

theorem opened_later (margin : Margin) {bs : List Text} (h : bs ≠ []) (b : Text) :
    opened margin (bs ++ [b]) = opened margin bs ++ [margin.later ++ b] := by
  cases bs with
  | nil => exact absurd rfl h
  | cons c bs => simp [opened]

theorem newline_not_mem_opened {margin : Margin} (hfirst : '\n' ∉ margin.first)
    (hlater : '\n' ∉ margin.later) {bs : List Text} (h : ∀ b ∈ bs, '\n' ∉ b) :
    ∀ l ∈ opened margin bs, '\n' ∉ l := by
  cases bs with
  | nil => simp [opened]
  | cons b bs =>
    have hb : '\n' ∉ b := h b (by simp)
    have hbs : ∀ c ∈ bs, '\n' ∉ c := fun c hc => h c (by simp [hc])
    simpa [opened, hfirst, hlater, hb] using hbs

theorem unlines_injective {ls ms : List Text} (hls : ∀ l ∈ ls, '\n' ∉ l) (hms : ∀ m ∈ ms, '\n' ∉ m)
    (h : unlines ls = unlines ms) : ls = ms := by
  rw [← lines_unlines hls, h, lines_unlines hms]

theorem blanksBefore_cons (c : Call) (cs : List Call) :
    blanksBefore (c :: cs) =
      (if c = .newline then 1 else 0) + if c.tokens = [] then blanksBefore cs else 0 := by
  by_cases hc : c.tokens = []
  · by_cases hn : c = .newline
    · simp [blanksBefore, hn, Call.tokens, Nat.add_comm]
    · simp [blanksBefore, hc, hn]
  · have hn : c ≠ .newline := by
      rintro rfl
      exact hc rfl
    simp [blanksBefore, hc, hn]

namespace Flow

def owed (w : Flow) : Text := if w.atLineStart then [] else ['\n']

theorem owed_settle {w : Flow} (h : w.atLineStart = false) :
    w.settle.1 ++ w.settle.2.owed = ['\n'] := by
  unfold settle
  split
  · rfl
  · simp [owed, h]

theorem settle_margin (w : Flow) : w.settle.2.margin = w.margin := by
  unfold settle
  split <;> rfl

theorem settle_firstLine (w : Flow) : w.settle.2.firstLine = w.firstLine := by
  unfold settle
  split <;> rfl

/-- How a flow and the text before it stand: so many blank lines with the first margin, and lines
with these bodies behind them. The first margin is still to be used as long as there are none. -/
structure Stands (margin : Margin) (blanks : Nat) (bodies : List Text) (text : Text) (w : Flow) :
    Prop where
  margin_eq : w.margin = margin
  flat : ∀ b ∈ bodies, '\n' ∉ b
  first : w.firstLine = true ↔ bodies = []
  start : w.firstLine = true → w.atLineStart = true
  text_eq : text ++ w.owed = unlines (List.replicate blanks margin.first ++ opened margin bodies)

theorem start_stands (cols : Nat) (margin : Margin) :
    Stands margin 0 [] [] (start cols margin) :=
  ⟨rfl, by simp, by simp [Flow.start], fun _ => rfl, rfl⟩

variable {margin : Margin} {blanks : Nat} {bodies : List Text} {text : Text} {w : Flow}

theorem Stands.bodies_ne_nil (h : Stands margin blanks bodies text w) (hw : w.firstLine = false) :
    bodies ≠ [] := by
  intro hnil
  rw [h.first.mpr hnil] at hw
  cases hw

theorem Stands.openWith (h : Stands margin blanks bodies text w) (hw : w.atLineStart = true)
    {t : Text} (ht : '\n' ∉ t) :
    Stands margin blanks (bodies ++ [escapeLineStart t]) (text ++ (w.openWith t).1)
      (w.openWith t).2 := by
  have hopening : opened margin (bodies ++ [escapeLineStart t]) =
      opened margin bodies ++ [w.opening ++ escapeLineStart t] := by
    cases hf : w.firstLine with
    | true =>
      rw [h.first.mp hf]
      simp [opened, Flow.opening, hf, h.margin_eq]
    | false =>
      rw [opened_later margin (h.bodies_ne_nil hf)]
      simp [Flow.opening, hf, h.margin_eq]
  have htext : text = unlines (List.replicate blanks margin.first ++ opened margin bodies) := by
    simpa [owed, hw] using h.text_eq
  refine ⟨?_, ?_, ?_, ?_, ?_⟩
  · exact (settle_margin _).trans h.margin_eq
  · intro b hb
    rcases List.mem_append.mp hb with hb | hb
    · exact h.flat b hb
    · rw [List.mem_singleton.mp hb]
      rwa [← List.count_eq_zero, count_newline_escapeLineStart, List.count_eq_zero]
  · simp [Flow.openWith, settle_firstLine]
  · simp [Flow.openWith, settle_firstLine]
  · have howed := owed_settle (w := { w with
      count := w.count + (Text.width w.opening + Text.width (escapeLineStart t))
      firstLine := false
      atLineStart := false }) rfl
    rw [hopening, ← List.append_assoc, unlines_append, ← htext]
    simp [Flow.openWith, howed]

theorem Stands.breakLine (h : Stands margin blanks bodies text w) (hw : w.atLineStart = false) :
    Stands margin blanks bodies (text ++ w.breakLine.1) w.breakLine.2 := by
  have htext := h.text_eq
  rw [owed, hw] at htext
  exact ⟨h.margin_eq, h.flat, h.first, fun _ => rfl, by simpa [Flow.breakLine, owed] using htext⟩

theorem Stands.append (h : Stands margin blanks bodies text w) (hw : w.atLineStart = false)
    {t : Text} (ht : '\n' ∉ t) :
    ∃ bodies', bodies' ≠ [] ∧
      Stands margin blanks bodies' (text ++ (w.append t).1) (w.append t).2 := by
  have hfirst : w.firstLine = false := by
    by_contra hf
    rw [h.start (by simpa using hf)] at hw
    cases hw
  obtain ⟨front, b, rfl⟩ : ∃ front b, bodies = front ++ [b] :=
    ⟨_, _, (List.dropLast_append_getLast (h.bodies_ne_nil hfirst)).symm⟩
  obtain ⟨m, hm⟩ := opened_concat margin front
  have htext : text = unlines (List.replicate blanks margin.first ++ opened margin front) ++
      (m ++ b) := by
    have heq := h.text_eq
    rw [owed, hw, hm, ← List.append_assoc, unlines_append, unlines_cons, unlines_nil,
      List.append_cons, List.append_nil, ← List.append_assoc] at heq
    exact List.append_cancel_right heq
  have howed := owed_settle (w := { w with count := w.count + (Text.width t + 1) }) hw
  refine ⟨front ++ [b ++ ' ' :: t], by simp, ?_, ?_, ?_, ?_, ?_⟩
  · exact (settle_margin _).trans h.margin_eq
  · intro c hc
    rcases List.mem_append.mp hc with hc | hc
    · exact h.flat c (by simp [hc])
    · have hb : '\n' ∉ b := h.flat b (by simp)
      simp [List.mem_singleton.mp hc, hb, ht]
  · simp [Flow.append, settle_firstLine, hfirst]
  · simp [Flow.append, settle_firstLine, hfirst]
  · rw [hm, ← List.append_assoc, unlines_append, htext]
    simp [Flow.append, howed]

theorem Stands.write (h : Stands margin blanks bodies text w) {t : Text} (ht : '\n' ∉ t) :
    ∃ bodies', bodies' ≠ [] ∧
      Stands margin blanks bodies' (text ++ (w.write t).1) (w.write t).2 := by
  by_cases hopen : (w.firstLine || w.atLineStart) = true
  · have hw : w.atLineStart = true := by
      rcases Bool.or_eq_true_iff.mp hopen with hf | hs
      · exact h.start hf
      · exact hs
    rw [write_opening t hopen]
    exact ⟨_, by simp, h.openWith hw ht⟩
  · have hw : w.atLineStart = false := by
      rw [Bool.or_eq_true_iff, not_or] at hopen
      exact Bool.eq_false_iff.mpr hopen.2
    unfold Flow.write
    rw [if_neg hopen]
    split
    · have hbroken := (h.breakLine hw).openWith rfl ht
      rw [List.append_assoc] at hbroken
      exact ⟨_, by simp, hbroken⟩
    · exact h.append hw ht

theorem Stands.writeAll (h : Stands margin blanks bodies text w) (ts : List Text)
    (hts : ∀ t ∈ ts.filter (!·.isEmpty), '\n' ∉ t) :
    ∃ bodies', (bodies' = [] ↔ bodies = [] ∧ ts.filter (!·.isEmpty) = []) ∧
      Stands margin blanks bodies' (text ++ (w.writeAll ts).1) (w.writeAll ts).2 := by
  induction ts generalizing bodies text w with
  | nil => exact ⟨bodies, by simp, by simpa [Flow.writeAll] using h⟩
  | cons t ts ih =>
    rw [Flow.writeAll]
    split
    · next hempty =>
      have hskip : (t :: ts).filter (!·.isEmpty) = ts.filter (!·.isEmpty) :=
        List.filter_cons_of_neg (by simp [hempty])
      rw [hskip] at hts ⊢
      exact ih h hts
    · next hne =>
      have hkeep : (t :: ts).filter (!·.isEmpty) = t :: ts.filter (!·.isEmpty) :=
        List.filter_cons_of_pos (by simpa using hne)
      rw [hkeep] at hts ⊢
      obtain ⟨first, hfirst, hstep⟩ := h.write (hts t (by simp))
      obtain ⟨bodies', hiff, hrest⟩ := ih hstep fun u hu => hts u (by simp [hu])
      refine ⟨bodies', ?_, by simpa using hrest⟩
      simp [hiff, hfirst]

/-- A line end at the start of a line makes a line of its own. Before the first token it is one more
blank line with the first margin. -/
theorem Stands.newline (h : Stands margin blanks bodies text w) :
    ∃ bodies', (bodies' = [] ↔ bodies = []) ∧
      Stands margin (blanks + if bodies = [] then 1 else 0) bodies' (text ++ w.newline.1)
        w.newline.2 := by
  cases hf : w.firstLine with
  | true =>
    have hnil := h.first.mp hf
    have htext := h.text_eq
    rw [owed, h.start hf, if_pos rfl, List.append_nil, hnil] at htext
    refine ⟨[], by simp [hnil], h.margin_eq, by simp, by simp [Flow.newline, Flow.breakLine, hf],
      fun _ => rfl, ?_⟩
    simp [Flow.newline, Flow.breakLine, hf, Flow.opening, owed, h.margin_eq, htext, hnil, opened,
      List.replicate_succ']
  | false =>
    have hne := h.bodies_ne_nil hf
    rw [if_neg hne, Nat.add_zero]
    cases hs : w.atLineStart with
    | true =>
      have htext := h.text_eq
      rw [owed, hs, if_pos rfl, List.append_nil] at htext
      refine ⟨bodies ++ [[]], by simp [hne], h.margin_eq, ?_, ?_, fun _ => rfl, ?_⟩
      · intro b hb
        rcases List.mem_append.mp hb with hb | hb
        · exact h.flat b hb
        · simp [List.mem_singleton.mp hb]
      · simp [Flow.newline, Flow.breakLine, hf]
      · rw [opened_later margin hne, ← List.append_assoc, unlines_append, ← htext]
        simp [Flow.newline, Flow.breakLine, hf, hs, Flow.opening, owed, h.margin_eq]
    | false =>
      have hbroken := h.breakLine hs
      exact ⟨bodies, Iff.rfl, by simpa [Flow.newline, hf, hs] using hbroken⟩

theorem Stands.terminate (h : Stands margin blanks bodies text w) :
    Stands margin blanks bodies (text ++ w.terminate.1) w.terminate.2 := by
  unfold Flow.terminate
  split
  · simpa using h
  · next hs =>
    have hw : w.atLineStart = false := by simpa using hs
    have hf : w.firstLine = false := by
      by_contra hf
      exact hs (h.start (by simpa using hf))
    have hbroken := h.breakLine hw
    simpa [Flow.newline, hf, hw] using hbroken

/-- One call keeps the account: only a line end before the first token adds a blank line with the
first margin. -/
theorem Stands.call (h : Stands margin blanks bodies text w) {c : Call} (hc : c.OneLine) :
    ∃ bodies', (bodies' = [] ↔ bodies = [] ∧ c.tokens = []) ∧
      Stands margin (blanks + if bodies = [] ∧ c = .newline then 1 else 0) bodies'
        (text ++ (w.call c).1) (w.call c).2 := by
  cases c with
  | write t =>
    obtain ⟨bodies', hne, hstep⟩ := h.write (hc t (by simp [Call.tokens]))
    exact ⟨bodies', by simp [hne, Call.tokens], by simpa [Flow.call] using hstep⟩
  | writeAll ts =>
    obtain ⟨bodies', hiff, hstep⟩ := h.writeAll ts hc
    exact ⟨bodies', hiff, by simpa [Flow.call] using hstep⟩
  | newline =>
    obtain ⟨bodies', hiff, hstep⟩ := h.newline
    exact ⟨bodies', by simp [hiff, Call.tokens], by simpa [Flow.call] using hstep⟩
  | terminate => exact ⟨bodies, by simp [Call.tokens], by simpa [Flow.call] using h.terminate⟩

theorem Stands.run (h : Stands margin blanks bodies text w) {calls : List Call}
    (hcalls : ∀ c ∈ calls, c.OneLine) :
    ∃ bodies', (bodies' = [] ↔ bodies = [] ∧ calls.flatMap Call.tokens = []) ∧
      Stands margin (blanks + if bodies = [] then blanksBefore calls else 0) bodies'
        (text ++ (w.run calls).1) (w.run calls).2 := by
  induction calls generalizing blanks bodies text w with
  | nil => exact ⟨bodies, by simp, by simpa [Flow.run, blanksBefore] using h⟩
  | cons c cs ih =>
    obtain ⟨first, hfirst, hstep⟩ := h.call (hcalls c (by simp))
    obtain ⟨bodies', hiff, hrest⟩ := ih hstep fun d hd => hcalls d (by simp [hd])
    refine ⟨bodies', by simp [hiff, hfirst, and_assoc], ?_⟩
    -- lines ended before the first token are counted as long as no call has written one
    have hblanks : (if bodies = [] ∧ c = .newline then 1 else 0) +
        (if first = [] then blanksBefore cs else 0) =
        if bodies = [] then blanksBefore (c :: cs) else 0 := by
      by_cases hb : bodies = []
      · simp [hb, hfirst, blanksBefore_cons]
      · simp [hb, hfirst]
    rw [Nat.add_assoc, hblanks] at hrest
    simpa [Flow.run] using hrest

end Flow

theorem written_eq_unlines (cols : Nat) (margin : Margin) {calls : List Call}
    (h : ∀ c ∈ calls, c.OneLine) :
    ∃ bodies, (∀ b ∈ bodies, '\n' ∉ b) ∧ (bodies = [] ↔ calls.flatMap Call.tokens = []) ∧
      written cols margin calls =
        unlines (List.replicate (blanksBefore calls) margin.first ++ opened margin bodies) := by
  obtain ⟨bodies, hiff, hstands⟩ := (Flow.start_stands cols margin).run h
  have hend := hstands.terminate.text_eq
  have hstart : ((Flow.start cols margin).run calls).2.terminate.2.owed = [] := by
    unfold Flow.terminate
    split
    · next hs => simp [Flow.owed, hs]
    · rfl
  rw [hstart, List.append_nil, List.nil_append, if_pos rfl, Nat.zero_add] at hend
  exact ⟨bodies, hstands.flat, by simpa using hiff, hend⟩

/-- Lines that begin with a first margin of their own cannot stand for later ones. -/
theorem opensOnce_iff {k : Nat} {bodies : List Text} (h : ∀ b ∈ bodies, '\n' ∉ b) :
    OpensOnce ⟨['-'], ['+']⟩ (unlines (List.replicate k ['-'] ++ opened ⟨['-'], ['+']⟩ bodies)) ↔
      k = 0 ∨ k = 1 ∧ bodies = [] := by
  constructor
  · rintro ⟨own, hown, heq⟩
    have hlines : ∀ l ∈ List.replicate k ['-'] ++ opened ⟨['-'], ['+']⟩ bodies, '\n' ∉ l := by
      intro l hl
      rcases List.mem_append.mp hl with hl | hl
      · rw [List.eq_of_mem_replicate hl]
        decide
      · exact newline_not_mem_opened (by decide) (by decide) h l hl
    have hsame := unlines_injective hlines (newline_not_mem_opened (by decide) (by decide) hown) heq
    cases k with
    | zero => exact .inl rfl
    | succ k =>
      cases own with
      | nil => cases hsame
      | cons b bs =>
        -- what follows the first line begins with the first margin on one side only
        have htail : List.replicate k ['-'] ++ opened ⟨['-'], ['+']⟩ bodies =
            bs.map (['+'] ++ ·) := (List.cons.inj hsame).2
        cases k with
        | zero =>
          cases bodies with
          | nil => exact .inr ⟨rfl, rfl⟩
          | cons c cs => cases bs <;> simp [opened] at htail
        | succ k => cases bs <;> simp [List.replicate_succ] at htail
  · rintro (rfl | ⟨rfl, rfl⟩)
    · exact ⟨bodies, h, rfl⟩
    · exact ⟨[[]], by simp, rfl⟩

/-- The lines that calls write begin with the first margin as long as no token is written, and with
the later margin behind the line of the first token. So the first margin is used once, whatever the
margins are, exactly if no line is ended before the first token, or one line is all there is. -/
theorem run_opens_lines (cols : Nat) {calls : List Call} (h : ∀ c ∈ calls, c.OneLine) :
    (∀ margin, ∃ bodies, (∀ b ∈ bodies, '\n' ∉ b) ∧
      (bodies = [] ↔ calls.flatMap Call.tokens = []) ∧
      written cols margin calls =
        unlines (List.replicate (blanksBefore calls) margin.first ++ opened margin bodies)) ∧
    ((∀ margin, OpensOnce margin (written cols margin calls)) ↔
      blanksBefore calls = 0 ∨ blanksBefore calls = 1 ∧ calls.flatMap Call.tokens = []) := by
  refine ⟨fun margin => written_eq_unlines cols margin h, ?_, ?_⟩
  · intro honce
    obtain ⟨bodies, hflat, hnone, htext⟩ := written_eq_unlines cols ⟨['-'], ['+']⟩ h
    have hthere := honce ⟨['-'], ['+']⟩
    rw [htext, opensOnce_iff hflat, hnone] at hthere
    exact hthere
  · intro hblanks margin
    obtain ⟨bodies, hflat, hnone, htext⟩ := written_eq_unlines cols margin h
    rw [htext]
    rcases hblanks with hzero | ⟨hone, htokens⟩
    · exact ⟨bodies, hflat, by rw [hzero]; rfl⟩
    · rw [hone, hnone.mpr htokens]
      exact ⟨[[]], by simp, by simp [opened]⟩

/-- A blank line at the start, a line that is too long for two tokens, and a blank line within. -/
def quotedCalls : List Call :=
  [.terminate, .newline, .writeAll ["a".toList, [], "bcd".toList], .newline, .newline,
    .write "-".toList]

theorem run_opens_lines_quotedCalls :
    (∀ c ∈ quotedCalls, c.OneLine) ∧
      written 6 ⟨"* ".toList, "> ".toList⟩ quotedCalls =
        "* \n* a\n> bcd\n> \n> \\-\n".toList ∧
      ¬ ∀ margin, OpensOnce margin (written 6 margin quotedCalls) := by
  have hflat : ∀ c ∈ quotedCalls, c.OneLine := by decide
  refine ⟨hflat, by decide, ?_⟩
  rw [(run_opens_lines 6 hflat).2]
  decide

/-- A line end first, and then a token: the first margin stands on both lines. -/
theorem run_repeats_first_margin :
    written 80 ⟨"- ".toList, "  ".toList⟩ [.newline, .write "a".toList] = "- \n- a\n".toList ∧
      blanksBefore [.newline, .write "a".toList] = 1 := by
  decide

end CanonMark.Layout
