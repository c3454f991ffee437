import CanonMark.Proofs.Markdown.Parts

/-! # Quotes read back

A line in nested quotes begins with one mark a quote. Marks beyond the open quotes open new ones; a
line of fewer marks closes the inner quotes, and the layout puts such a line between the children of
a quote.
-/
namespace CanonMark.Markdown

open Cursor (indented)
open Layout (runTokens cut lineBody fillLines Quotable quotedLines quoteBody)
open State (idle)

def QuoteFrames (frames : List Frame) : Prop := ∀ f ∈ frames, f.container = .quote

def freshQuote : Frame := ⟨.quote, []⟩

theorem spine_quotes {frames : List Frame} (h : QuoteFrames frames) (done : List Block) :
    (idle frames done).spine = List.replicate frames.length .quote := by
  have hmap : frames.map Frame.container = List.replicate frames.length .quote :=
    List.eq_replicate_iff.mpr ⟨by simp, by simpa [QuoteFrames] using h⟩
  rw [State.spine, idle, hmap, List.reverse_replicate]

theorem finishList_quotes {frames : List Frame} (h : QuoteFrames frames) (done : List Block) :
    (idle frames done).finishList = idle frames done := by
  refine State.finishList_idle done fun f hf mark loose hc => ?_
  rw [h f (List.mem_of_mem_head? hf)] at hc
  cases hc

theorem quoteFrames_push {frames : List Frame} (h : QuoteFrames frames) (n : Nat) :
    QuoteFrames (List.replicate n freshQuote ++ frames) := by
  intro f hf
  rcases List.mem_append.mp hf with hf | hf
  · rw [List.eq_of_mem_replicate hf]
    rfl
  · exact h f hf

theorem quoteMarks_append (depth : Nat) : quoteMarks depth ++ "> ".toList = quoteMarks (depth + 1) := by
  simp [quoteMarks, List.replicate_succ']

theorem quoteMarks_length (depth : Nat) : (quoteMarks depth).length = 2 * depth := by
  induction depth with
  | zero => rfl
  | succ depth ih =>
    rw [quoteMarks_succ, List.length_cons, List.length_cons, ih]
    omega

theorem oneLine_quoteMarks (depth : Nat) : OneLine (quoteMarks depth) := by
  induction depth with
  | zero => exact ⟨by simp [quoteMarks], by simp [quoteMarks]⟩
  | succ depth ih =>
    rw [quoteMarks_succ, oneLine_cons, oneLine_cons]
    exact ⟨by decide, by decide, ih⟩

theorem openContainers_mark (s : State) (t : Text) (fuel column : Nat) :
    openContainers (fuel + 1) s (indented 0 ('>' :: ' ' :: t) column) =
      openContainers fuel (s.finishList.push .quote) (indented 0 t (column + 2)) := by
  have hflush : Flush ('>' :: ' ' :: t) := flush_cons _ rfl
  have hmarker : (indented 0 ('>' :: ' ' :: t) column).listMarker? 0 = none := by
    simp [Cursor.listMarker?, indented_zero_rest, isThematicBreak, listMarker?, Text.isDigit]
  simp [openContainers, indented_skip_four (e := 0) (by omega) hflush, hmarker, quoteMark_indented]

theorem openContainers_marks {frames : List Frame} (h : QuoteFrames frames) (done : List Block)
    {t : Text} (ht : t = [] ∨ Calm t) {n fuel : Nat} (hf : n ≤ fuel) (column : Nat) :
    openContainers (fuel + 1) (idle frames done) (indented 0 (quoteMarks n ++ t) column) =
      (idle (List.replicate n freshQuote ++ frames) done, some (indented 0 t (column + 2 * n))) := by
  induction n generalizing frames fuel column with
  | zero => exact openContainers_stop _ ht (by omega) column fuel
  | succ n ih =>
    cases fuel with
    | zero => omega
    | succ fuel =>
      have hpush : QuoteFrames (freshQuote :: frames) := quoteFrames_push h 1
      have hcol : column + 2 + 2 * n = column + 2 * (n + 1) := by omega
      rw [quoteMarks_succ, List.cons_append, List.cons_append, openContainers_mark,
        finishList_quotes h]
      change openContainers (fuel + 1) (idle (freshQuote :: frames) done) _ = _
      rw [ih hpush (by omega), hcol, List.replicate_succ']
      simp

/-- From `s`, lines with the marks of these quotes or of more lead into them. -/
def EntersQuotes (s : State) (frames : List Frame) (done : List Block) : Prop :=
  ∀ n t, t = [] ∨ Calm t →
    Enters s (quoteMarks (frames.length + n) ++ t) (idle (List.replicate n freshQuote ++ frames) done)
      (indented 0 t (2 * (frames.length + n)))

theorem entersQuotes_idle {frames : List Frame} (h : QuoteFrames frames) (done : List Block) :
    EntersQuotes (idle frames done) frames done := by
  intro n t ht
  have hpass := pass_quotes frames.length n t 0
  refine ⟨[], indented 0 (quoteMarks n ++ t) (0 + 2 * frames.length), ?_, ?_⟩
  · rw [spine_quotes h]
    exact hpass
  · have hlen : n ≤ (indented 0 (quoteMarks n ++ t) (0 + 2 * frames.length)).rest.length := by
      rw [indented_zero_rest, List.length_append, quoteMarks_length]
      omega
    have hcol : 0 + 2 * frames.length + 2 * n = 2 * (frames.length + n) := by omega
    rw [List.length_nil, State.closeMany, openContainers_marks h done ht hlen, hcol]

theorem EntersQuotes.deeper {s : State} {frames : List Frame} {done : List Block}
    (h : EntersQuotes s frames done) : EntersQuotes s (freshQuote :: frames) done := by
  intro n t ht
  have := h (n + 1) t ht
  rw [List.replicate_succ', List.append_assoc] at this
  rw [List.length_cons]
  have hadd : frames.length + 1 + n = frames.length + (n + 1) := by omega
  rw [hadd]
  exact this

/-- Nothing, or a line with at most so many quote marks and nothing behind them. -/
def QuoteEnd (depth : Nat) (tail : List Line) : Prop :=
  tail = [] ∨ ∃ j rest, j ≤ depth ∧ tail = fullLine (quoteMarks j) :: rest

theorem leads_quotes (depth : Nat) : Leads (List.replicate depth .quote) (quoteMarks depth) := by
  intro t _
  have hpass := pass_quotes depth 0 t 0
  rw [Nat.add_zero, quoteMarks_zero, List.nil_append] at hpass
  exact ⟨0, _, by omega, hpass⟩

theorem halts_quotes {depth : Nat} {tail : List Line} (h : QuoteEnd depth tail) :
    Halts (List.replicate depth .quote) none tail := by
  rcases h with rfl | ⟨j, rest, hj, rfl⟩
  · exact halts_nil _ _
  · obtain ⟨inner, rfl⟩ := Nat.exists_eq_add_of_le hj
    have hpass := pass_fewer_quotes j inner (t := []) flush_nil (by simp)
    rw [List.append_nil] at hpass
    have hline : pass (fullLine (quoteMarks j)).start (List.replicate (j + inner) .quote) =
        (List.replicate inner .quote, indented 0 [] (2 * j)) := hpass
    exact halts_blank hline rest

mutual
def quotedParts (depth : Nat) : Node → List Part
  | .mk .paragraph _ cs => [.run ⟨quoteMarks depth, quoteMarks depth⟩ none cs]
  | .mk .quote _ ns => quotesParts (depth + 1) ns
  | _ => []

def quotesParts (depth : Nat) : List Node → List Part
  | [] => []
  | n :: ns => quotedParts depth n ++ quotesParts depth ns
end

def QuoteSound (cols depth : Nat) (n : Node) : Prop := ∀ p ∈ quotedParts depth n, p.Sound cols

def QuotesSound (cols depth : Nat) (ns : List Node) : Prop :=
  ∀ p ∈ quotesParts depth ns, p.Sound cols

theorem quotesSound_cons {cols depth : Nat} {n : Node} {ns : List Node} :
    QuotesSound cols depth (n :: ns) ↔ QuoteSound cols depth n ∧ QuotesSound cols depth ns := by
  simp only [QuotesSound, QuoteSound, quotesParts, List.forall_mem_append]

/-- Within these quotes a block has been read; inner quotes may still be open. -/
structure QuotedBlock (frames : List Frame) (done : List Block) (b : Block) (s : State) : Prop where
  within : ∃ inner done', s = idle inner done' ∧ QuoteFrames inner ∧ frames.length ≤ inner.length
  closes : s.closeMany (s.frames.length - frames.length) = (idle frames done).add b

theorem QuotedBlock.separator {frames : List Frame} {done : List Block} {b : Block} {s : State}
    (h : QuotedBlock frames done b s) (hq : QuoteFrames frames) (following : List Line) :
    readBlock s (fullLine (quoteMarks frames.length)) following =
      ((idle frames done).add b, following) := by
  obtain ⟨⟨inner, done', rfl, hinner, hle⟩, hcloses⟩ := h
  obtain ⟨k, hk⟩ := Nat.exists_eq_add_of_le hle
  have hpass := pass_fewer_quotes frames.length k (t := []) flush_nil (by simp)
  rw [List.append_nil, ← hk, ← spine_quotes hinner done'] at hpass
  have hcount : (idle inner done').frames.length - frames.length = k := by
    change inner.length - frames.length = k
    omega
  rw [hcount] at hcloses
  have henters : Enters (idle inner done') (quoteMarks frames.length) ((idle frames done).add b)
      (indented 0 [] (2 * frames.length)) := by
    refine ⟨_, _, hpass, ?_⟩
    rw [List.length_replicate, hcloses]
    exact openContainers_stop _ (Or.inl rfl) (by omega) _ _
  rw [henters.readBlock_blank rfl]
  cases frames with
  | nil => rfl
  | cons f frames =>
    obtain ⟨container, blocks⟩ := f
    obtain rfl : container = .quote := hq ⟨container, blocks⟩ (by simp)
    rfl

theorem quotedBlock_add {frames : List Frame} (hq : QuoteFrames frames) (hne : frames ≠ [])
    (done : List Block) (b : Block) : QuotedBlock frames done b ((idle frames done).add b) := by
  cases frames with
  | nil => exact absurd rfl hne
  | cons f frames =>
    have hadd : (idle (f :: frames) done).add b =
        idle ({ f with blocks := b :: f.blocks } :: frames) done := rfl
    refine ⟨⟨_, done, hadd, ?_, by simp⟩, ?_⟩
    · intro g hg
      rcases List.mem_cons.mp hg with rfl | hg
      · exact hq f (by simp)
      · exact hq g (by simp [hg])
    · rw [hadd]
      simp [idle, State.closeMany]

/-- A block read within a fresh quote belongs to the quote, which is read itself when it ends. -/
theorem QuotedBlock.outer {frames : List Frame} {done bs : List Block} {b : Block} {s : State}
    (h : QuotedBlock (⟨.quote, bs⟩ :: frames) done b s) :
    QuotedBlock frames done (.quote (b :: bs).reverse) s := by
  obtain ⟨⟨inner, done', rfl, hinner, hle⟩, hcloses⟩ := h
  refine ⟨⟨inner, done', rfl, hinner, by simp at hle; omega⟩, ?_⟩
  have hcount : (idle inner done').frames.length - frames.length =
      (idle inner done').frames.length - (frames.length + 1) + 1 := by
    change inner.length - frames.length = inner.length - (frames.length + 1) + 1
    simp only [List.length_cons] at hle
    omega
  rw [List.length_cons] at hcloses
  rw [hcount, State.closeMany_add, hcloses]
  rfl

mutual
/-- A child of these quotes is read back as a block within them. -/
theorem quoted_reads {cols : Nat} {frames : List Frame} (hq : QuoteFrames frames)
    {done : List Block} {s : State} (hs : EntersQuotes s (freshQuote :: frames) done)
    {tail : List Line} (htail : QuoteEnd frames.length tail) : ∀ {n : Node}, Quotable n →
    QuoteSound cols frames.length n →
    (n.kind = .paragraph → frames ≠ [] ∧ EntersQuotes s frames done) →
    ∃ s' b, Shows cols n b ∧ QuotedBlock frames done b s' ∧
      Reads s ((quotedLines cols (quoteMarks frames.length) n).map fullLine ++ tail) s' tail
  | .mk .paragraph l cs, _, hsound, hp => by
    obtain ⟨hne, hs⟩ := hp rfl
    have hsound : SoundRun cols _ _ cs := sound_single.mp hsound
    obtain ⟨t, bodies, hbodies, hlines⟩ :=
      hsound.lines (oneLine_quoteMarks _) (oneLine_quoteMarks _)
    have hcoherent := hsound.coherent
    rw [hbodies] at hcoherent
    have hcalm : Calm t := hcoherent.calm t (by simp)
    have henters := hs 0 t (Or.inr hcalm)
    have hfinish := finishList_quotes hq done
    have hlead : Leads (idle frames done).spine (quoteMarks frames.length) := by
      rw [spine_quotes hq]
      exact leads_quotes _
    have hhalt : Halts (idle frames done).spine none tail := by
      rw [spine_quotes hq]
      exact halts_quotes htail
    obtain ⟨content, hspread, hleaf⟩ := readLeaf_paragraph (e := 0) (by omega)
      (2 * frames.length) hcoherent hlead hhalt (by rwa [hfinish]) (by rwa [hfinish])
    refine ⟨_, _, .paragraph l hsound (hbodies ▸ hspread), quotedBlock_add hq hne done _, ?_⟩
    rw [quotedLines, hlines, List.map_cons, List.cons_append, List.map_map]
    refine .single ?_ (by simp)
    have hblock := henters.readBlock_leaf hcalm.not_blank
      (bodies.map (fun b => fullLine (quoteMarks frames.length ++ b)) ++ tail)
    rw [hfinish] at hleaf
    exact hblock.trans hleaf
  | .mk .quote l [], _, _, _ => by
    have henters := hs 0 [] (Or.inl rfl)
    refine ⟨idle (freshQuote :: frames) done, .quote [], .quote l .nil, ⟨?_, ?_⟩, ?_⟩
    · exact ⟨_, done, rfl, quoteFrames_push hq 1, by simp⟩
    · have hcount : (idle (freshQuote :: frames) done).frames.length - frames.length = 1 := by
        simp [idle]
      rw [hcount]
      rfl
    · rw [quotedLines, quoteMarks_append, List.map_singleton, List.singleton_append]
      refine .single ?_ (by simp)
      rw [List.append_nil] at henters
      exact henters.readBlock_blank rfl tail
  | .mk .quote l (c :: cs), h, hsound, _ => by
    have hcs : ∀ n ∈ c :: cs, Quotable n := by
      cases h with
      | quote _ h => exact h
    have hpush : QuoteFrames (freshQuote :: frames) := quoteFrames_push hq 1
    have hend : QuoteEnd (freshQuote :: frames).length tail := by
      rcases htail with rfl | ⟨j, rest, hj, rfl⟩
      · exact Or.inl rfl
      · exact Or.inr ⟨j, rest, by simp; omega, rfl⟩
    obtain ⟨s', blocks, hshows, hblock, hreads⟩ :=
      quoteBody_reads hpush hs hend hcs (by simp) hsound
    refine ⟨s', .quote blocks, .quote l hshows, hblock, ?_⟩
    rw [quotedLines, quoteMarks_append]
    exact hreads

theorem quoteBody_reads {cols : Nat} {frames : List Frame} {bs : List Block}
    (hq : QuoteFrames (⟨.quote, bs⟩ :: frames)) {done : List Block} {s : State}
    (hs : EntersQuotes s (⟨.quote, bs⟩ :: frames) done) {tail : List Line}
    (htail : QuoteEnd (frames.length + 1) tail) : ∀ {ns : List Node}, (∀ n ∈ ns, Quotable n) →
    ns ≠ [] → QuotesSound cols (frames.length + 1) ns →
    ∃ s' blocks, ShowsAll cols ns blocks ∧
      QuotedBlock frames done (.quote (bs.reverse ++ blocks)) s' ∧
      Reads s ((quoteBody cols (quoteMarks (frames.length + 1)) ns).map fullLine ++ tail) s' tail
  | [], _, hne, _ => absurd rfl hne
  | [c], h, _, hsound => by
    rw [quotesSound_cons] at hsound
    obtain ⟨s', b, hshows, hblock, hreads⟩ :=
      quoted_reads hq hs.deeper htail (h c (by simp)) hsound.1 fun _ => ⟨by simp, hs⟩
    refine ⟨s', [b], .cons hshows .nil, ?_, hreads⟩
    have := hblock.outer
    rwa [List.reverse_cons] at this
  | c :: d :: cs, h, _, hsound => by
    rw [quotesSound_cons] at hsound
    have hgap : QuoteEnd (frames.length + 1) (fullLine (quoteMarks (frames.length + 1)) ::
        ((quoteBody cols (quoteMarks (frames.length + 1)) (d :: cs)).map fullLine ++ tail)) :=
      Or.inr ⟨_, _, Nat.le_refl _, rfl⟩
    obtain ⟨s₁, b, hshows, hblock, hreads⟩ :=
      quoted_reads hq hs.deeper hgap (h c (by simp)) hsound.1 fun _ => ⟨by simp, hs⟩
    have hsep := hblock.separator hq
      ((quoteBody cols (quoteMarks (frames.length + 1)) (d :: cs)).map fullLine ++ tail)
    have hq' : QuoteFrames (⟨.quote, b :: bs⟩ :: frames) := by
      intro f hf
      rcases List.mem_cons.mp hf with rfl | hf
      · rfl
      · exact hq f (by simp [hf])
    obtain ⟨s', blocks, hall, hblock', hreads'⟩ := quoteBody_reads hq'
      (entersQuotes_idle hq' done) htail (fun n hn => h n (by simp [hn])) (by simp) hsound.2
    refine ⟨s', b :: blocks, .cons hshows hall, by simpa using hblock', ?_⟩
    rw [quoteBody, List.map_append, List.append_assoc, List.map_cons, List.cons_append]
    exact hreads.trans (.step hsep (by simp) hreads')
end

mutual
theorem quoted_begins {cols depth : Nat} : ∀ {n : Node}, Quotable n → QuoteSound cols depth n →
    ∃ t rest, quotedLines cols (quoteMarks depth) n = (quoteMarks depth ++ t) :: rest
  | .mk .paragraph _ cs, _, hsound => by
    obtain ⟨t, bodies, -, hlines⟩ :=
      (sound_single.mp hsound).lines (oneLine_quoteMarks _) (oneLine_quoteMarks _)
    exact ⟨t, _, by rw [quotedLines, hlines]⟩
  | .mk .quote _ [], _, _ => ⟨_, [], rfl⟩
  | .mk .quote _ (c :: cs), h, hsound => by
    have hcs : ∀ n ∈ c :: cs, Quotable n := by
      cases h with
      | quote _ h => exact h
    obtain ⟨t, rest, hlines⟩ := quoteBody_begins hcs (by simp) hsound
    refine ⟨"> ".toList ++ t, rest, ?_⟩
    rw [quotedLines, quoteMarks_append, hlines, ← quoteMarks_append, List.append_assoc]

theorem quoteBody_begins {cols depth : Nat} : ∀ {ns : List Node}, (∀ n ∈ ns, Quotable n) → ns ≠ [] →
    QuotesSound cols depth ns →
    ∃ t rest, quoteBody cols (quoteMarks depth) ns = (quoteMarks depth ++ t) :: rest
  | [], _, hne, _ => absurd rfl hne
  | [c], h, _, hsound => by
    rw [quoteBody]
    exact quoted_begins (h c (by simp)) (quotesSound_cons.mp hsound).1
  | c :: d :: cs, h, _, hsound => by
    rw [quotesSound_cons] at hsound
    obtain ⟨t, rest, hlines⟩ := quoted_begins (h c (by simp)) hsound.1
    exact ⟨t, _, by rw [quoteBody, hlines]; rfl⟩
end

mutual
theorem quoted_oneLines {cols depth : Nat} : ∀ {n : Node}, Quotable n → QuoteSound cols depth n →
    ∀ l ∈ quotedLines cols (quoteMarks depth) n, OneLine l
  | .mk .paragraph _ cs, _, hsound => by
    rw [quotedLines]
    exact (sound_single.mp hsound).oneLines (oneLine_quoteMarks _) (oneLine_quoteMarks _)
  | .mk .quote _ [], _, _ => by
    intro l hl
    rw [quotedLines, quoteMarks_append] at hl
    rw [List.mem_singleton.mp hl]
    exact oneLine_quoteMarks _
  | .mk .quote _ (c :: cs), h, hsound => by
    have hcs : ∀ n ∈ c :: cs, Quotable n := by
      cases h with
      | quote _ h => exact h
    rw [quotedLines, quoteMarks_append]
    exact quoteBody_oneLines hcs hsound

theorem quoteBody_oneLines {cols depth : Nat} : ∀ {ns : List Node}, (∀ n ∈ ns, Quotable n) →
    QuotesSound cols depth ns → ∀ l ∈ quoteBody cols (quoteMarks depth) ns, OneLine l
  | [], _, _ => by simp [quoteBody]
  | [c], h, hsound => by
    rw [quoteBody]
    exact quoted_oneLines (h c (by simp)) (quotesSound_cons.mp hsound).1
  | c :: d :: cs, h, hsound => by
    rw [quotesSound_cons] at hsound
    intro l hl
    rw [quoteBody, List.mem_append, List.mem_cons] at hl
    rcases hl with hl | rfl | hl
    · exact quoted_oneLines (h c (by simp)) hsound.1 l hl
    · exact oneLine_quoteMarks _
    · exact quoteBody_oneLines (fun n hn => h n (by simp [hn])) hsound.2 l hl
end

end CanonMark.Markdown
