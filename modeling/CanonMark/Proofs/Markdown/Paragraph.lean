import CanonMark.Proofs.Markdown.Calm

/-! # Paragraphs read back

A paragraph that was filled behind a margin is read as one paragraph: each of its lines passes the
containers that stand for the margin and opens no block. The lines behind it must end it.
-/
namespace CanonMark.Markdown

open Cursor (indented)

/-- The content of lines with a line feed between neighbours. -/
inductive Spreads : List Text → Content → Prop where
  | one (t) : Spreads [t] (.ofText t)
  | more (t b) {ls c} : b.ending = ['\n'] → b.underline = false → Spreads ls c →
      Spreads (t :: ls) (.ofText t ++ .newline b :: c)

/-- A margin that passes the containers, but for up to three spaces. -/
def Leads (spine : List Container) (margin : Text) : Prop :=
  ∀ t, Flush t → ∃ e column, e < 4 ∧
    pass (.ofText (margin ++ t)) spine = ([], indented e t column)

/-- Whether a line makes the line before it the head of a table with so many columns. -/
def headsTable (columns : Nat) (next : Text) : Bool :=
  (delimiterRow? next).any fun alignments => columns == alignments.length

def firstColumns (t : Text) : Nat :=
  if endsInBackslash t then 0 else columnCount (splitAtFreePipes t)

/-- Within a paragraph only a line that begins with a pipe can be the head of a table. -/
def laterHeadless : List Text → Bool
  | t :: next :: ls =>
    !(t.head? == some '|' && headsTable (columnCount (splitAtPipes false t)) next) &&
      laterHeadless (next :: ls)
  | _ => true

/-- No line of a paragraph is the head of a table. -/
def headless : List Text → Bool
  | t :: next :: ls => !headsTable (firstColumns t) next && laterHeadless (next :: ls)
  | _ => true

/-- Lines that end the paragraph before them. If the first of them belongs to the containers of the
paragraph, `next` is its text. -/
structure Halts (spine : List Container) (next : Option Text) (tail : List Line) : Prop where
  stops : continuation spine tail = ⟨[], none, tail⟩
  headless : ∀ columns, (∀ b ∈ next, headsTable columns b = false) →
    tableHead? spine columns tail = none

theorem indented_skip_four {e : Nat} (he : e < 4) {t : Text} (ht : Flush t) (column : Nat) :
    (indented e t column).skip 4 = (e, indented 0 t (column + e)) := by
  have hmin : min 4 e = e := by omega
  have hsub : e - 4 = 0 := by omega
  rw [Cursor.skip_indented ht, hmin, hsub]

theorem indented_zero_rest (t : Text) (column : Nat) : (indented 0 t column).rest = t := rfl

theorem replicate_isSpaceOrTab (n : Nat) : ∀ c ∈ List.replicate n ' ', Text.isSpaceOrTab c = true := by
  intro c hc
  rw [List.eq_of_mem_replicate hc]
  rfl

theorem takeWhile_flush {t : Text} (ht : Flush t) : t.takeWhile Text.isSpaceOrTab = [] := by
  cases t with
  | nil => rfl
  | cons c t => simp [ht c rfl]

theorem halts_nil (spine : List Container) (next : Option Text) : Halts spine next [] :=
  ⟨rfl, fun _ _ => rfl⟩

theorem halts_blank {spine left : List Container} {line : Line} {column : Nat}
    (h : pass line.start spine = (left, indented 0 [] column)) (rest : List Line) :
    Halts spine none (line :: rest) := by
  have hskip := indented_skip_four (e := 0) (by omega) flush_nil column
  constructor
  · simp only [continuation, h, hskip, indented_zero_rest, underlineLevel?, List.all_nil,
      Bool.or_true, ite_self]
    rfl
  · intro columns _
    cases left with
    | nil =>
      have hin : inside? spine line = some (indented 0 [] column) := by simp only [inside?, h]
      have hrow : delimiterRow? [] = none := rfl
      simp only [tableHead?, hin, bind, Option.bind, hskip, indented_zero_rest, hrow, ite_self]
    | cons c left =>
      have hin : inside? spine line = none := by simp only [inside?, h]
      simp only [tableHead?, hin, bind, Option.bind]

section

variable {spine : List Container} {margin : Text} (hm : Leads spine margin)
include hm

theorem tableHead_line {b : Text} (hb : Calm b) {columns : Nat} (hd : headsTable columns b = false)
    (following : List Line) :
    tableHead? spine columns (fullLine (margin ++ b) :: following) = none := by
  obtain ⟨e, column, he, hpass⟩ := hm b hb.flush
  have hin : inside? spine (fullLine (margin ++ b)) = some (indented e b column) := by
    simp only [inside?, Line.start, fullLine, hpass]
  have hnot : ¬ e ≥ 4 := by omega
  simp only [tableHead?, hin, bind, Option.bind, indented_skip_four he hb.flush,
    indented_zero_rest, if_neg hnot]
  rw [headsTable] at hd
  cases hr : delimiterRow? b with
  | none => rfl
  | some alignments => simpa [hr] using hd

theorem furtherLine_of_line {b : Text} (hb : Calm b) :
    (FurtherLine.ofLine spine (fullLine (margin ++ b))).content = b ∧
      (FurtherLine.ofLine spine (fullLine (margin ++ b))).underline = false ∧
      (FurtherLine.ofLine spine (fullLine (margin ++ b))).ending = ['\n'] := by
  obtain ⟨e, column, he, hpass⟩ := hm b hb.flush
  have htake : (indented e b column).rest.takeWhile Text.isSpaceOrTab = List.replicate e ' ' := by
    rw [indented, List.takeWhile_append_of_pos (replicate_isSpaceOrTab e), takeWhile_flush hb.flush,
      List.append_nil]
  have hpass' : pass (fullLine (margin ++ b)).start spine = ([], indented e b column) := hpass
  simp only [FurtherLine.ofLine, hpass', htake]
  refine ⟨?_, rfl, rfl⟩
  simp [indented]

/-- The lines of a paragraph continue it, up to the lines that end it. -/
theorem continuation_lines {next : Option Text} {tail : List Line} (ht : Halts spine next tail)
    {bodies : List Text} (hcalm : ∀ b ∈ bodies, Calm b)
    (hrow : laterHeadless (bodies ++ next.toList) = true) :
    continuation spine (bodies.map (fun b => fullLine (margin ++ b)) ++ tail) =
        ⟨bodies.map fun b => .ofLine spine (fullLine (margin ++ b)), none, tail⟩ ∧
      ∀ columns, (∀ b ∈ (bodies ++ next.toList).head?, headsTable columns b = false) →
        tableHead? spine columns (bodies.map (fun b => fullLine (margin ++ b)) ++ tail) = none := by
  induction bodies with
  | nil =>
    refine ⟨ht.stops, fun columns h => ht.headless columns ?_⟩
    cases next with
    | none => simp
    | some b => simpa using h
  | cons b bodies ih =>
    have hb : Calm b := hcalm b (by simp)
    have hnext : laterHeadless (bodies ++ next.toList) = true ∧
        (b.head? = some '|' → ∀ c ∈ (bodies ++ next.toList).head?,
          headsTable (columnCount (splitAtPipes false b)) c = false) := by
      rw [List.cons_append] at hrow
      cases hl : bodies ++ next.toList with
      | nil => simp [laterHeadless]
      | cons c ls =>
        rw [hl, laterHeadless, Bool.and_eq_true] at hrow
        refine ⟨hrow.2, fun hpipe d hd => ?_⟩
        obtain rfl : c = d := by simpa using hd
        simpa [hpipe] using hrow.1
    obtain ⟨hgo, hhead⟩ := ih (fun x hx => hcalm x (by simp [hx])) hnext.1
    refine ⟨?_, fun columns h => tableHead_line hm hb (h b (by simp)) _⟩
    obtain ⟨e, column, he, hpass⟩ := hm b hb.flush
    have hpass' : pass (fullLine (margin ++ b)).start spine = ([], indented e b column) := hpass
    have hblank : (indented e b column).rest.all Text.isSpaceOrTab = false := by
      obtain ⟨c, hc, hs⟩ := hb.visible
      cases b with
      | nil => simp at hc
      | cons d b =>
        have hd : Text.isSpaceOrTab d = false := hb.flush d rfl
        simp [indented, hd]
    have hinterrupts : interruptsParagraph spine false b
        (bodies.map (fun b => fullLine (margin ++ b)) ++ tail) = false := by
      rw [interruptsParagraph, hb.interrupts, Bool.false_or]
      by_cases hpipe : b.head? = some '|'
      · rw [hhead _ (hnext.2 hpipe)]
        simp
      · simp [hpipe]
    rw [List.map_cons, List.cons_append, continuation]
    simp only [hpass', indented_skip_four he hb.flush, indented_zero_rest, hb.underline,
      List.isEmpty_nil, Bool.not_true, hinterrupts, hblank, Bool.and_false, Bool.or_false, ite_self]
    simp [hgo]

end

theorem spreads_joinLines {t : Text} {further : List FurtherLine}
    (h : ∀ l ∈ further, l.underline = false ∧ l.ending = ['\n']) :
    Spreads (t :: further.map FurtherLine.content) (joinLines t ['\n'] further) := by
  induction further generalizing t with
  | nil => exact .one t
  | cons l ls ih =>
    have hl := h l (by simp)
    have hrest := ih (t := l.content) (fun m hm => h m (by simp [hm]))
    rw [joinLines, hl.2]
    exact .more t _ rfl hl.1 hrest

def closesLabel : Text → Bool
  | [] => false
  | '\\' :: _ :: t => closesLabel t
  | c :: t =>
    if c == ']' then t.head? == some ':' else if c == '[' then false else closesLabel t

/-- Whether a paragraph begins with a label and a colon, as a definition does. -/
def startsDefinition : Text → Bool
  | '[' :: t => closesLabel t
  | _ => false

def Content.plain (c : Content) : Text := c.map fun s => s.char?.getD '\n'

theorem plain_ofText (t : Text) : (Content.ofText t).plain = t := by
  have hchar : (fun s : Symbol => s.char?.getD '\n') ∘ Symbol.char = id := rfl
  rw [Content.plain, Content.ofText, List.map_map, hchar, List.map_id]

theorem plain_ne {s : Symbol} {c : Char} (h : ¬ s.test (· == c) = true) (hfeed : '\n' ≠ c)
    (hpipe : '|' ≠ c) : s.char?.getD '\n' ≠ c := by
  cases s with
  | char d =>
    change d ≠ c
    simpa [Symbol.test] using h
  | pipe => exact hpipe
  | _ => exact hfeed

theorem plain_append (c d : Content) : Content.plain (c ++ d) = c.plain ++ d.plain := by
  simp [Content.plain]

theorem plain_of_spreads {ls : List Text} {c : Content} (h : Spreads ls c) :
    c.plain = Text.join ['\n'] ls := by
  induction h with
  | one t => exact plain_ofText t
  | @more t b ls c _ _ hs ih =>
    obtain ⟨u, us, rfl⟩ : ∃ u us, ls = u :: us := by cases hs <;> exact ⟨_, _, rfl⟩
    have hbreak : Content.plain (.newline b :: c) = '\n' :: c.plain := rfl
    have hjoin : Text.join ['\n'] (t :: u :: us) = t ++ ['\n'] ++ Text.join ['\n'] (u :: us) := rfl
    rw [plain_append, plain_ofText, hbreak, ih, hjoin, List.append_assoc]
    rfl

theorem closesLabel_of_labelBody {c : Content} {w : Nat} {l : Label} (h : labelBody? w c = some l)
    (hcolon : l.rest.head? = some (.char ':')) : closesLabel c.plain = true := by
  fun_induction labelBody? w c generalizing l with
  | case1 => cases h
  | case2 => cases h
  | case3 w s t hw ih =>
    obtain ⟨l', hl', rfl⟩ := Option.map_eq_some_iff.mp h
    exact ih hl' hcolon
  | case4 => cases h
  | case5 w s t _ _ hs =>
    obtain rfl := Option.some.inj h
    cases s <;> simp [Symbol.test] at hs
    subst hs
    cases t with
    | nil => simp at hcolon
    | cons s t =>
      obtain rfl : s = .char ':' := by simpa using hcolon
      rfl
  | case6 => cases h
  | case7 w s t hslash _ hclose hopen ih =>
    obtain ⟨l', hl', rfl⟩ := Option.map_eq_some_iff.mp h
    have hrest := ih hl' hcolon
    change closesLabel (s.char?.getD '\n' :: Content.plain t) = true
    rw [closesLabel]
    · have hc : s.char?.getD '\n' ≠ ']' := plain_ne hclose (by decide) (by decide)
      have ho : s.char?.getD '\n' ≠ '[' := plain_ne hopen (by decide) (by decide)
      simpa [hc, ho] using hrest
    · intro d u he htail
      have hs : s = .char '\\' := by
        by_contra hne
        refine plain_ne ?_ (by decide) (by decide) he
        cases s with
        | char c => simpa [Symbol.test] using hne
        | _ => simp [Symbol.test]
      cases t with
      | nil => cases htail
      | cons x t => exact hslash x t hs rfl

theorem definition_none {ls : List Text} {c : Content} (h : Spreads ls c)
    (hd : startsDefinition (Text.join ['\n'] ls) = false) : definition? c = none := by
  rw [← plain_of_spreads h] at hd
  unfold definition?
  split
  · next inner =>
    have hlabel : closesLabel (Content.plain inner) = false := hd
    cases hb : labelBody? 0 inner with
    | none => simp [label?, hb]
    | some l =>
      cases hcolon : Content.after? [':'] l.rest with
      | none =>
        by_cases hsolid : l.solid <;> simp [label?, hb, hsolid, hcolon]
      | some rest =>
        have hhead : l.rest.head? = some (.char ':') := by
          cases hr : l.rest with
          | nil => simp [hr, Content.after?] at hcolon
          | cons s t =>
            cases s <;> simp [hr, Content.after?] at hcolon ⊢
            exact hcolon.1.symm
        rw [closesLabel_of_labelBody hb hhead] at hlabel
        cases hlabel
  · rfl

/-- What a paragraph needs in order to be read back from its lines. The text `next` follows it if a
list is nested behind it. -/
structure Coherent (ls : List Text) (next : Option Text) : Prop where
  calm : ∀ l ∈ ls, Calm l
  untagged : ∀ l ∈ ls.head?, Html.isTagLine l = false
  headless : headless (ls ++ next.toList) = true
  undefined : startsDefinition (Text.join ['\n'] ls) = false

/-- A paragraph and the lines that end it, read from the first line on. -/
theorem readLeaf_paragraph {s : State} {margin t : Text} {bodies : List Text} {next : Option Text}
    {tail : List Line} {e : Nat} (he : e < 4) (column : Nat) (h : Coherent (t :: bodies) next)
    (hm : Leads s.spine margin) (ht : Halts s.spine next tail)
    (hm' : Leads s.finishList.spine margin) (ht' : Halts s.finishList.spine next tail) :
    ∃ content, Spreads (t :: bodies) content ∧
      readLeaf s (indented e t column) ['\n']
          (bodies.map (fun b => fullLine (margin ++ b)) ++ tail) =
        (s.finishList.add (.paragraph content.trimEnd), tail) := by
  have hfirst : Calm t := h.calm t (by simp)
  have hlater : ∀ b ∈ bodies, Calm b := fun b hb => h.calm b (by simp [hb])
  have hrows : laterHeadless (bodies ++ next.toList) = true ∧
      ∀ b ∈ (bodies ++ next.toList).head?, headsTable (firstColumns t) b = false := by
    have hh := h.headless
    rw [List.cons_append] at hh
    cases hl : bodies ++ next.toList with
    | nil => simp [laterHeadless]
    | cons c ls =>
      rw [hl, Markdown.headless, Bool.and_eq_true] at hh
      refine ⟨hh.2, fun b hb => ?_⟩
      obtain rfl : c = b := by simpa using hb
      simpa using hh.1
  -- both spines continue the paragraph by the same lines
  have hspread : ∀ {spine}, Leads spine margin → Spreads (t :: bodies) (joinLines t ['\n']
      (bodies.map fun b => .ofLine spine (fullLine (margin ++ b)))) := by
    intro spine hlead
    have hcontent : bodies = (bodies.map fun b =>
        FurtherLine.ofLine spine (fullLine (margin ++ b))).map FurtherLine.content := by
      rw [List.map_map]
      conv_lhs => rw [← List.map_id bodies]
      exact List.map_congr_left fun b hb => (furtherLine_of_line hlead (hlater b hb)).1.symm
    conv => arg 1; rw [hcontent]
    refine spreads_joinLines fun l hl => ?_
    obtain ⟨b, hb, rfl⟩ := List.mem_map.mp hl
    exact (furtherLine_of_line hlead (hlater b hb)).2
  obtain ⟨hgo, -⟩ := continuation_lines hm ht hlater hrows.1
  obtain ⟨hgo', hhead'⟩ := continuation_lines hm' ht' hlater hrows.1
  refine ⟨_, hspread hm', ?_⟩
  have hindent : ¬ e ≥ 4 := by omega
  have htag : Html.isTagLine t = false := h.untagged t (by simp)
  have hdef : definition? (joinLines t ['\n']
      (bodies.map fun b => .ofLine s.spine (fullLine (margin ++ b)))) = none :=
    definition_none (hspread hm) h.undefined
  simp only [readLeaf, indented_skip_four he hfirst.flush, indented_zero_rest, if_neg hindent,
    hfirst.html, hfirst.tag, htag, hfirst.thematic, hfirst.heading, hfirst.fence, Bool.or_false,
    readDefinitions, hgo, hdef]
  simp [readParagraph, ← firstColumns.eq_def, hhead' _ hrows.2, hgo']

end CanonMark.Markdown
