import CanonMark.Proofs.Markdown.Lists
import CanonMark.Proofs.Markdown.Quotes

/-! # Documents read back

The blocks of a document have an empty line between neighbours. A list stays open behind that line,
because a further item could continue it, and so a list that follows must have another mark.
-/
namespace CanonMark.Markdown

open Cursor (indented)
open Layout (Renderable blockLines documentLines headingLine literals fenceWidth codeLines wholeLines
  rowTexts rowLine columnWidths tableLines)
open State (idle)

/-- What a line that begins a block finds: at most a list that the block ends. -/
structure Vacant (S : State) (done : List Block) (last : Option ListMark) : Prop where
  spine : S.spine = [] ∨ ∃ mark loose, S.spine = [.list mark loose]
  finish : S.finishList = idle [] done
  list : ∀ mark, last ≠ some mark → S.continueList mark = idle [⟨.list mark false, []⟩] done

/-- From `s`, a line without indentation begins a block behind the blocks `done`. -/
def Ready (s : State) (done : List Block) (last : Option ListMark) : Prop :=
  ∀ t, Flush t → t ≠ [] → ∃ left, pass (indented 0 t 0) s.spine = (left, indented 0 t 0) ∧
    Vacant (s.closeMany left.length) done last

/-- A block has been read, and nothing but an empty line or the end may follow. -/
structure Complete (s : State) (done : List Block) (last : Option ListMark) : Prop where
  closes : s.closeMany s.frames.length = idle [] done
  blank : ∀ rest, ∃ s', readBlock s (fullLine []) rest = (s', rest) ∧ Ready s' done last

def Gap (tail : List Line) : Prop := tail = [] ∨ ∃ rest, tail = fullLine [] :: rest

theorem ready_idle (done : List Block) : Ready (idle [] done) done none := by
  intro t _ _
  refine ⟨[], rfl, ?_⟩
  exact ⟨Or.inl rfl, rfl, fun mark _ => rfl⟩

theorem complete_idle (done : List Block) : Complete (idle [] done) done none := by
  refine ⟨rfl, fun rest => ⟨idle [] done, ?_, ready_idle done⟩⟩
  rfl

theorem Vacant.leads {S : State} {done : List Block} {last : Option ListMark}
    (h : Vacant S done last) : Leads S.spine [] := by
  intro t _
  rcases h.spine with hs | ⟨mark, loose, hs⟩
  · exact ⟨0, 0, by omega, by rw [hs]; rfl⟩
  · exact ⟨0, 0, by omega, by rw [hs]; rfl⟩

theorem halts_gap (spine : List Container) {tail : List Line} (h : Gap tail) :
    Halts spine none tail := by
  rcases h with rfl | ⟨rest, rfl⟩
  · exact halts_nil _ _
  · obtain ⟨left, hpass⟩ := pass_blank spine
    have hline : pass (fullLine []).start spine = (left, indented 0 [] 0) := hpass
    exact halts_blank hline rest

theorem Ready.enters {s : State} {done : List Block} {last : Option ListMark}
    (h : Ready s done last) {t : Text} (hf : Flush t) (hne : t ≠ []) (hm : listMarker? t = none)
    (hq : t.head? ≠ some '>') : ∃ S, Vacant S done last ∧ Enters s t S (indented 0 t 0) := by
  obtain ⟨left, hpass, hvacant⟩ := h t hf hne
  exact ⟨_, hvacant, left, _, hpass, openContainers_none _ hf hm hq (by omega) _ _⟩

theorem Ready.leaf {s : State} {done : List Block} {last : Option ListMark}
    (h : Ready s done last) {c : Char} {u : Text} (hs : Text.isSpacing c = false)
    (hm : listMarker? (c :: u) = none) (hq : c ≠ '>') :
    ∃ S, Vacant S done last ∧ ∀ following, readBlock s (fullLine (c :: u)) following =
      readLeaf S (indented 0 (c :: u) 0) ['\n'] following := by
  have hflush : Flush (c :: u) := by
    refine flush_cons u ?_
    by_contra hc
    rw [isSpacing_of_isSpaceOrTab (by simpa using hc)] at hs
    cases hs
  obtain ⟨S, hvacant, henters⟩ := h.enters hflush (by simp) hm (by simpa using hq)
  refine ⟨S, hvacant, fun following => henters.readBlock_leaf ?_ following⟩
  simp [Cursor.isBlank, isBlankText, indented, hs]

theorem complete_leaf {s : State} {b : Block} {done : List Block} {line : Text}
    {following tail : List Line}
    (h : readBlock s (fullLine line) following = ((idle [] done).add b, tail))
    (hle : tail.length ≤ following.length) :
    ∃ s', Complete s' (b :: done) none ∧ Reads s (fullLine line :: following) s' tail :=
  ⟨idle [] (b :: done), complete_idle _, .single h hle⟩

theorem quoteFrames_nil : QuoteFrames [] := by simp [QuoteFrames]

theorem Ready.quote {s : State} {done : List Block} {last : Option ListMark}
    (h : Ready s done last) : EntersQuotes s [freshQuote] done := by
  intro n t ht
  have hline : quoteMarks ([freshQuote].length + n) ++ t = '>' :: ' ' :: (quoteMarks n ++ t) := by
    rw [List.length_singleton, Nat.add_comm, quoteMarks_succ]
    rfl
  have hcol : 0 + 2 + 2 * n = 2 * ([freshQuote].length + n) := by
    rw [List.length_singleton]
    omega
  have hquote : QuoteFrames [freshQuote] := quoteFrames_push quoteFrames_nil 1
  obtain ⟨left, hpass, hvacant⟩ := h ('>' :: ' ' :: (quoteMarks n ++ t)) (flush_cons _ rfl) (by simp)
  refine ⟨left, _, by rw [hline]; exact hpass, ?_⟩
  have hfuel : (indented 0 ('>' :: ' ' :: (quoteMarks n ++ t)) 0).rest.length =
      (2 * n + t.length + 1) + 1 := by
    simp [indented_zero_rest, quoteMarks_length]
  rw [hfuel, openContainers_mark, hvacant.finish, ← hcol]
  exact openContainers_marks hquote done ht (by omega) _

theorem complete_quote {s : State} {done : List Block} {b : Block} (h : QuotedBlock [] done b s) :
    Complete s (b :: done) none := by
  refine ⟨?_, fun rest => ⟨_, h.separator quoteFrames_nil rest, ready_idle _⟩⟩
  exact h.closes

theorem Ready.list {s : State} {done : List Block} {last : Option ListMark} (h : Ready s done last)
    {mark : ListMark} (hmark : last ≠ some mark) :
    Continues s 0 0 mark (idle [⟨.list mark false, []⟩] done) := by
  intro t hf hne
  obtain ⟨left, hpass, hvacant⟩ := h t hf hne
  exact ⟨left, hpass, hvacant.list mark hmark⟩

theorem pass_blank_items {spine : List Container} (h : .quote ∉ spine) :
    pass (indented 0 [] 0) spine = ([], indented 0 [] 0) := by
  induction spine with
  | nil => rfl
  | cons c cs ih =>
    have hcs : .quote ∉ cs := fun hm => h (by simp [hm])
    cases c with
    | quote => exact absurd (by simp) h
    | list mark loose => exact ih hcs
    | item i =>
      rw [pass_cons_some (item_pass_blank i 0)]
      exact ih hcs

theorem closeMany_blankBefore (s : State) (n : Nat) :
    { s with blankBefore := true }.closeMany n = { s.closeMany n with blankBefore := true } := by
  induction n generalizing s with
  | zero => rfl
  | succ n ih =>
    have hclose : { s with blankBefore := true }.close = { s.close with blankBefore := true } := by
      obtain ⟨frames, blocks, definitions, before, empty⟩ := s
      cases frames with
      | nil => rfl
      | cons f frames =>
        obtain ⟨container, inner⟩ := f
        cases frames with
        | nil =>
          rcases container with _ | ⟨mark, loose⟩ | indent
          · rfl
          · cases loose <;> rfl
          · rfl
        | cons g frames =>
          rcases container with _ | ⟨mark, loose⟩ | indent
          · rfl
          · cases loose <;> rfl
          · rfl
    rw [State.closeMany, State.closeMany, hclose, ih]

theorem blankLine_items {inner : List Frame} (done : List Block) (hne : inner ≠ [])
    (h : .quote ∉ spineOf inner) :
    (idle inner done).blankLine = { idle inner done with blankBefore := true } := by
  cases inner with
  | nil => exact absurd rfl hne
  | cons f inner =>
    obtain ⟨container, blocks⟩ := f
    cases container with
    | quote => exact absurd (by simp [spineOf]) h
    | list mark loose => rfl
    | item i => rfl

theorem complete_list {s : State} {done items : List Block} {mark : ListMark}
    (h : ItemsRead [] done mark 0 items s) :
    Complete s (.list mark.ordered true items.reverse :: done) (some mark) := by
  obtain ⟨inner, i, more, rfl, hi, hmore, hspine, hclose⟩ := h
  have hspine' : spineOf inner = .list mark false :: .item i :: more := hspine
  have hquote : .quote ∉ spineOf inner := by simpa [hspine'] using hmore
  have hlen : inner.length = more.length + 1 + 1 := by
    have := congrArg List.length hspine'
    simpa [spineOf] using this
  refine ⟨?_, fun rest => ⟨{ idle inner done with blankBefore := true }, ?_, ?_⟩⟩
  · change (idle inner done).closeMany inner.length = _
    rw [hlen, State.closeMany_add, hclose]
    rfl
  · have henters : Enters (idle inner done) [] (idle inner done) (indented 0 [] 0) :=
      ⟨[], _, pass_blank_items hquote, openContainers_stop _ (Or.inl rfl) (by omega) _ _⟩
    rw [henters.readBlock_blank rfl, blankLine_items done _ hquote]
    rintro rfl
    simp at hlen
  · intro t hf hne
    refine ⟨.item i :: more, ?_, ?_⟩
    · change pass (indented 0 t 0) (spineOf inner) = _
      rw [hspine', pass_list]
      exact pass_cons_none (item_stops hf hne hi 0) more
    · rw [List.length_cons, closeMany_blankBefore, hclose]
      refine ⟨Or.inr ⟨mark, false, rfl⟩, rfl, fun mark' hne => ?_⟩
      have hmark : mark ≠ mark' := fun e => hne (congrArg some e)
      simp only [State.continueList, idle, if_neg hmark]
      rfl

def blockParts (cols : Nat) : Node → List Part
  | .mk (.heading level) _ cs => [.heading level (literals cs)]
  | .mk (.codeBlock fenced length info) code _ => [.code (fenceWidth fenced length) info code]
  | .mk (.table _) _ [.mk .tableHead _ [header], .mk .tableBody _ rows] =>
    [.table (rowTexts header) (rows.map rowTexts)]
  | .mk .paragraph _ cs => [.run ⟨[], []⟩ none cs]
  | .mk .quote _ ns => quotesParts 1 ns
  | .mk (.list ordered) _ items => .list items.length :: itemsParts cols 0 ordered 0 items
  | _ => []

def BlockSound (cols : Nat) (n : Node) : Prop := ∀ p ∈ blockParts cols n, p.Sound cols

instance (cols : Nat) (n : Node) : Decidable (BlockSound cols n) :=
  inferInstanceAs (Decidable (∀ p ∈ blockParts cols n, p.Sound cols))

theorem BlockSound.list {cols : Nat} {ordered : Bool} {l : Text} {items : List Node}
    (h : BlockSound cols (.mk (.list ordered) l items)) :
    (items ≠ [] ∧ items.length < 1000000000) ∧ ItemsSound cols 0 ordered 0 items := by
  have hcount : Part.Sound cols (.list items.length) := h _ (List.mem_cons_self ..)
  exact ⟨⟨List.length_pos_iff.mp hcount.1, hcount.2⟩, fun p hp => h p (List.mem_cons_of_mem _ hp)⟩

def lastMark : Node → Option ListMark
  | .mk (.list ordered) _ _ => some (listMark ordered)
  | _ => none

/-- From a state in which a block may begin, the lines of a node are read as a block that shows it.
-/
def BlockReads (cols : Nat) (n : Node) : Prop :=
  ∀ {s : State} {done : List Block} {last : Option ListMark} {tail : List Line},
    Ready s done last → (∀ mark, lastMark n = some mark → last ≠ some mark) → Gap tail →
    ∃ s' b, Shows cols n b ∧ Complete s' (b :: done) (lastMark n) ∧
      Reads s ((blockLines cols n).map fullLine ++ tail) s' tail

theorem heading_reads {cols level : Nat} (l : Text) {cs : List Node}
    (h : BlockSound cols (.mk (.heading level) l cs)) : BlockReads cols (.mk (.heading level) l cs) := by
  intro s done last tail hs _ _
  obtain ⟨⟨hlo, hhi⟩, -⟩ := sound_single.mp h
  obtain ⟨u, hu⟩ : ∃ u, headingLine level (literals cs) = '#' :: u := by
    obtain ⟨k, rfl⟩ := Nat.exists_eq_add_of_le' hlo
    exact ⟨_, rfl⟩
  have hmarker : listMarker? ('#' :: u) = none := by simp [listMarker?, Text.isDigit]
  obtain ⟨S, hvacant, hread⟩ := hs.leaf rfl hmarker (by decide)
  have hleaf := readLeaf_heading (s := S) hlo hhi (literals cs) tail
  rw [hu, ← hread, hvacant.finish] at hleaf
  obtain ⟨s', hcomplete, hreads⟩ := complete_leaf hleaf (Nat.le_refl _)
  rw [← hu] at hcomplete
  exact ⟨s', _, .heading level l cs, hcomplete, by rw [blockLines, hu]; exact hreads⟩

theorem code_reads {cols length : Nat} {fenced : Bool} {info code : Text} {cs : List Node}
    (h : BlockSound cols (.mk (.codeBlock fenced length info) code cs)) :
    BlockReads cols (.mk (.codeBlock fenced length info) code cs) := by
  intro s done last tail hs _ _
  obtain ⟨⟨hwidth, hticks, -⟩, hwhole, hlines⟩ := sound_single.mp h
  obtain ⟨u, hu⟩ : ∃ u, List.replicate (fenceWidth fenced length) '\x60' ++ info = '\x60' :: u := by
    obtain ⟨k, hk⟩ := Nat.exists_eq_add_of_le' hwidth
    rw [hk]
    exact ⟨_, rfl⟩
  have hmarker : listMarker? ('\x60' :: u) = none := by simp [listMarker?, Text.isDigit]
  obtain ⟨S, hvacant, hread⟩ := hs.leaf rfl hmarker (by decide)
  have hleaf := readLeaf_code (s := S) (by rw [hvacant.finish]; rfl) hwidth hticks
    (fun l hl => (hlines l hl).2) tail
  rw [hu, ← hread, hvacant.finish, Layout.unlines_codeLines hwhole] at hleaf
  obtain ⟨s', hcomplete, hreads⟩ := complete_leaf hleaf (by simp; omega)
  refine ⟨s', _, .code fenced length info code cs, hcomplete, ?_⟩
  rw [blockLines, hu]
  simpa using hreads

theorem table_reads {cols : Nat} {alignments : List Alignment} (l : Text) {cs : List Node}
    (hr : Layout.TableShape cs) (h : BlockSound cols (.mk (.table alignments) l cs)) :
    BlockReads cols (.mk (.table alignments) l cs) := by
  intro s done last tail hs _ htail
  cases hr with
  | @mk a b columns header rows hpos hheader _ hrows =>
    have hcount : ∀ {row : Node}, Layout.RowShape columns row → row.children.length = columns := by
      intro row hrow
      cases hrow with
      | mk l hlen _ => exact hlen
    have htexts : ∀ {row : Node}, Layout.RowShape columns row → (rowTexts row).length = columns := by
      intro row hrow
      rw [rowTexts, List.length_map, hcount hrow]
    have hbody : ∀ row ∈ rows.map rowTexts, row.length = columns := by
      intro row hrow
      obtain ⟨node, hnode, rfl⟩ := List.mem_map.mp hrow
      exact htexts (hrows node hnode)
    generalize hw : columnWidths alignments columns (rowTexts header :: rows.map rowTexts) = widths
    have hwidths : widths.length = columns := by simp [← hw, columnWidths]
    have hne : rowTexts header ≠ [] := List.length_pos_iff.mp (by rw [htexts hheader]; exact hpos)
    obtain ⟨u, hu⟩ := rowLine_plain hne (hwidths.trans (htexts hheader).symm)
    have hmarker : listMarker? ('|' :: u) = none := by simp [listMarker?, Text.isDigit]
    obtain ⟨S, hvacant, hread⟩ := hs.leaf rfl hmarker (by decide)
    have hleaf := readLeaf_table (s := S) (by rw [hvacant.finish]; rfl) alignments hpos
      (htexts hheader) hbody (sound_single.mp h).1 hw.symm htail
    rw [hu, ← hread, hvacant.finish, ← hu] at hleaf
    obtain ⟨s', hcomplete, hreads⟩ := complete_leaf hleaf (by simp; omega)
    refine ⟨s', _, .table alignments l a b header rows (by rw [hcount hheader, hw]), ?_, ?_⟩
    · have hshown : shownRow widths = fun row =>
          fitRow columns (cells (rowLine (rowTexts row) widths)) := by
        funext row
        rw [shownRow, hwidths]
      rw [List.map_map] at hcomplete
      rw [hcount hheader, hshown]
      exact hcomplete
    · rw [blockLines, tableLines, hcount hheader, hw]
      simpa [Function.comp_def] using hreads

theorem paragraph_reads {cols : Nat} (l : Text) {cs : List Node}
    (h : SoundRun cols ⟨[], []⟩ none cs) : BlockReads cols (.mk .paragraph l cs) := by
  intro s done last tail hs _ htail
  have hnil : OneLine [] := ⟨by simp, by simp⟩
  obtain ⟨t, bodies, hbodies, hlines⟩ := h.lines hnil hnil
  have hcoherent := h.coherent
  rw [hbodies] at hcoherent
  have hcalm : Calm t := hcoherent.calm t (by simp)
  obtain ⟨S, hvacant, henters⟩ := hs.enters hcalm.flush hcalm.ne_nil hcalm.marker hcalm.quote
  have hspine : S.finishList.spine = [] := by rw [hvacant.finish]; rfl
  have hlead : Leads S.finishList.spine [] := by
    rw [hspine]
    exact fun t _ => ⟨0, 0, by omega, rfl⟩
  obtain ⟨content, hspread, hleaf⟩ := readLeaf_paragraph (e := 0) (by omega) 0 hcoherent
    hvacant.leads (halts_gap _ htail) hlead (halts_gap _ htail)
  rw [← henters.readBlock_leaf hcalm.not_blank, hvacant.finish] at hleaf
  obtain ⟨s', hcomplete, hreads⟩ := complete_leaf hleaf (by simp)
  refine ⟨s', _, .paragraph l h (hbodies ▸ hspread), hcomplete, ?_⟩
  change Reads s ((Layout.fillLines cols ⟨[], []⟩ (Layout.runTokens cs)).map fullLine ++ tail) s' tail
  rw [hlines]
  simpa using hreads

theorem quote_reads {cols : Nat} (l : Text) {ns : List Node} (hr : ∀ n ∈ ns, Layout.Quotable n)
    (h : QuotesSound cols 1 ns) : BlockReads cols (.mk .quote l ns) := by
  intro s done last tail hs _ htail
  have hend : QuoteEnd 0 tail := by
    rcases htail with rfl | ⟨rest, rfl⟩
    · exact Or.inl rfl
    · exact Or.inr ⟨0, rest, Nat.le_refl _, rfl⟩
  have hsound : QuoteSound cols 0 (.mk .quote l ns) := h
  obtain ⟨s', b, hshows, hblock, hreads⟩ :=
    quoted_reads quoteFrames_nil hs.quote hend (.quote l hr) hsound (by simp [Node.kind])
  exact ⟨s', b, hshows, complete_quote hblock, hreads⟩

theorem list_reads {cols : Nat} {ordered : Bool} (l : Text) {items : List Node}
    (hr : ∀ n ∈ items, Layout.Listable n)
    (h : BlockSound cols (.mk (.list ordered) l items)) :
    BlockReads cols (.mk (.list ordered) l items) := by
  intro s done last tail hs hmark htail
  obtain ⟨⟨hne, hcount⟩, hitems⟩ := h.list
  have hpasses : Passes (spineOf []) 0 0 := passes_nil
  have hclose : Closes (spineOf []) 0 tail := by
    rcases htail with rfl | ⟨rest, rfl⟩
    · exact closes_nil _ _
    · exact closes_blank _ _ rest
  obtain ⟨s', bs, hall, hread, hreads⟩ := items_read
    (fun n hn => ⟨hr n hn, item_reads (hr n hn)⟩) hne hpasses (by omega) (by omega)
    (hs.list (hmark _ rfl)) hitems hclose
  rw [List.append_nil] at hread
  have hcomplete := complete_list hread
  rw [listMark_ordered, List.reverse_reverse] at hcomplete
  exact ⟨s', _, .list ordered l hall, hcomplete, hreads⟩

theorem block_reads {cols : Nat} {n : Node} (hr : Renderable n) (h : BlockSound cols n) :
    BlockReads cols n := by
  cases hr with
  | heading level l _ => exact heading_reads l h
  | paragraph l _ => exact paragraph_reads l (sound_single.mp h)
  | codeBlock fenced length info code cs => exact code_reads h
  | quote l hns => exact quote_reads l hns h
  | list ordered l hitems => exact list_reads l hitems h
  | table alignments l hcs => exact table_reads l hcs h

/-- No two neighbours are lists with the same kind of marker. -/
def parted : List Node → Bool
  | n :: m :: ns => ((lastMark n).isNone || lastMark n != lastMark m) && parted (m :: ns)
  | _ => true

theorem document_reads {cols : Nat} {ns : List Node}
    (h : ∀ n ∈ ns, Renderable n ∧ BlockSound cols n) (hparted : parted ns = true) {s : State}
    {done : List Block} {last : Option ListMark} (hs : Ready s done last)
    (hlast : ∀ n ∈ ns.head?, ∀ mark, lastMark n = some mark → last ≠ some mark) (hne : ns ≠ []) :
    ∃ s' bs last', ShowsAll cols ns bs ∧ Complete s' (bs.reverse ++ done) last' ∧
      Reads s ((documentLines cols ns).map fullLine) s' [] := by
  induction ns generalizing s done last with
  | nil => exact absurd rfl hne
  | cons n ns ih =>
    have hn : BlockReads cols n := block_reads (h n (by simp)).1 (h n (by simp)).2
    cases ns with
    | nil =>
      obtain ⟨s', b, hshows, hcomplete, hreads⟩ := hn hs (hlast n (by simp)) (Or.inl rfl)
      rw [List.append_nil] at hreads
      exact ⟨s', [b], _, .cons hshows .nil, hcomplete, hreads⟩
    | cons m ns =>
      simp only [parted, Bool.and_eq_true, Bool.or_eq_true, bne_iff_ne, ne_eq] at hparted
      obtain ⟨s₁, b, hshows, hcomplete, hreads⟩ := hn hs (hlast n (by simp))
        (Or.inr ⟨(documentLines cols (m :: ns)).map fullLine, rfl⟩)
      obtain ⟨s₂, hblank, hready⟩ := hcomplete.blank ((documentLines cols (m :: ns)).map fullLine)
      have hmarks : ∀ k ∈ (m :: ns).head?, ∀ mark, lastMark k = some mark →
          lastMark n ≠ some mark := by
        intro k hk mark hmark hlist
        obtain rfl : m = k := by simpa using hk
        rcases hparted.1 with hnone | hdiffer
        · rw [hlist] at hnone
          cases hnone
        · exact hdiffer (hlist.trans hmark.symm)
      obtain ⟨s', bs, last', hall, hdone, hrest⟩ :=
        ih (fun k hk => h k (by simp [hk])) hparted.2 hready hmarks (by simp)
      refine ⟨s', b :: bs, last', .cons hshows hall, by simpa using hdone, ?_⟩
      rw [documentLines, List.map_append, List.map_cons]
      exact hreads.trans (.step hblank (Nat.le_refl _) hrest)

theorem oneLine_nil : OneLine [] := ⟨by simp, by simp⟩

theorem oneLine_writeCell {cell : Text} (h : OneLine cell) (width : Nat) :
    OneLine (Layout.writeCell cell width) := by
  have hbar : OneLine "| ".toList := ⟨by simp, by simp⟩
  rw [Layout.writeCell, oneLine_append, oneLine_append]
  exact ⟨⟨hbar, h⟩, oneLine_replicate _⟩

theorem oneLine_flatMap {α : Type} {f : α → Text} {xs : List α} (h : ∀ x ∈ xs, OneLine (f x)) :
    OneLine (xs.flatMap f) := by
  constructor <;> intro hm
  · obtain ⟨x, hx, hc⟩ := List.mem_flatMap.mp hm
    exact (h x hx).1 hc
  · obtain ⟨x, hx, hc⟩ := List.mem_flatMap.mp hm
    exact (h x hx).2 hc

theorem oneLine_rowLine {cells : List Text} (h : ∀ c ∈ cells, OneLine c) (widths : List Nat) :
    OneLine (rowLine cells widths) := by
  refine oneLine_append.mpr ⟨oneLine_flatMap fun c hc => ?_, by decide⟩
  exact oneLine_writeCell (h c.1 (List.of_mem_zip hc).1) c.2

theorem oneLine_delimiterLine (alignments : List Alignment) (widths : List Nat) :
    OneLine (Layout.delimiterLine alignments widths) := by
  refine oneLine_append.mpr ⟨oneLine_flatMap fun c _ => ?_, by decide⟩
  obtain ⟨width, column⟩ := c
  have hcell : ∀ a, OneLine (Layout.delimiterCell a width) := by
    intro a
    cases a <;> simp [Layout.delimiterCell, OneLine]
  exact oneLine_cons.mpr ⟨by decide, hcell _⟩

theorem block_oneLines {cols : Nat} {n : Node} (hr : Renderable n) (h : BlockSound cols n) :
    ∀ l ∈ blockLines cols n, OneLine l := by
  cases hr with
  | heading level l _ =>
    intro line hline
    rw [blockLines, List.mem_singleton] at hline
    rw [hline]
    exact (sound_single.mp h).2
  | @paragraph l cs _ =>
    have hrun : SoundRun cols ⟨[], []⟩ none cs := sound_single.mp h
    exact hrun.oneLines oneLine_nil oneLine_nil
  | codeBlock fenced length info code cs =>
    have hfence : OneLine (List.replicate (fenceWidth fenced length) '\x60') := by
      constructor <;> simp [List.mem_replicate]
    obtain ⟨⟨-, -, hinfo⟩, -, hlines⟩ := sound_single.mp h
    intro line hline
    rw [blockLines, List.mem_append, List.mem_cons, List.mem_singleton] at hline
    rcases hline with (rfl | hline) | rfl
    · exact oneLine_append.mpr ⟨hfence, hinfo⟩
    · exact (hlines line hline).1
    · exact hfence
  | quote l hns =>
    have hsound : QuoteSound cols 0 (.mk .quote l _) := h
    exact quoted_oneLines (.quote l hns) hsound
  | list ordered l hitems =>
    exact items_oneLines (fun k hk _ => item_oneLines (hitems k hk)) h.list.2
  | table alignments l hcs =>
    cases hcs with
    | @mk a b columns header rows =>
      intro line hline
      rw [blockLines, tableLines, List.mem_cons, List.mem_cons, List.map_map, List.mem_map] at hline
      have hcells := (sound_single.mp h).2
      rcases hline with rfl | rfl | ⟨row, hrow, rfl⟩
      · exact oneLine_rowLine (hcells _ (List.mem_cons_self ..)) _
      · exact oneLine_delimiterLine _ _
      · exact oneLine_rowLine
          (hcells _ (List.mem_cons_of_mem _ (List.mem_map.mpr ⟨row, hrow, rfl⟩))) _

theorem block_begins {cols : Nat} {n : Node} (hr : Renderable n) (h : BlockSound cols n) :
    ∃ c t rest, blockLines cols n = (c :: t) :: rest := by
  cases hr with
  | heading level l _ =>
    obtain ⟨k, rfl⟩ := Nat.exists_eq_add_of_le' (sound_single.mp h).1.1
    exact ⟨'#', _, [], rfl⟩
  | @paragraph l cs _ =>
    have hrun : SoundRun cols ⟨[], []⟩ none cs := sound_single.mp h
    obtain ⟨t, bodies, hbodies, hlines⟩ := hrun.lines oneLine_nil oneLine_nil
    have hcalm : Calm t := hrun.coherent.calm t (by rw [hbodies]; simp)
    obtain ⟨c, u, rfl⟩ := List.exists_cons_of_ne_nil hcalm.ne_nil
    exact ⟨c, u, _, hlines⟩
  | codeBlock fenced length info code cs =>
    obtain ⟨k, hk⟩ := Nat.exists_eq_add_of_le' (sound_single.mp h).1.1
    rw [blockLines, hk]
    exact ⟨'\x60', _, _, rfl⟩
  | @quote l ns hns =>
    cases ns with
    | nil => exact ⟨'>', [' '], [], rfl⟩
    | cons k ns =>
      have hsound : QuotesSound cols 1 (k :: ns) := h
      obtain ⟨t, rest, hlines⟩ := quoteBody_begins hns (by simp) hsound
      exact ⟨'>', ' ' :: t, rest, hlines⟩
  | @list ordered l items hitems =>
    obtain ⟨⟨hne, -⟩, hsound⟩ := h.list
    cases items with
    | nil => exact absurd rfl hne
    | cons k items =>
      obtain ⟨t, rest, -, hlines⟩ :=
        itemLines_head (hitems k (by simp)) (itemsSound_cons.mp hsound).1
      obtain ⟨c, u, hc⟩ := List.exists_cons_of_ne_nil (marker_ne_nil ordered 0 t)
      have hitem : Layout.itemLines cols [] (Layout.marker ordered 0) k = (c :: u) :: rest := by
        rw [← hc]
        exact hlines
      refine ⟨c, u, rest ++ Layout.itemsLines cols [] ordered 1 items, ?_⟩
      change Layout.itemsLines cols [] ordered 0 (k :: items) = _
      rw [Layout.itemsLines, hitem]
      rfl
  | table alignments l hcs =>
    cases hcs with
    | @mk a b columns header rows hpos hheader =>
      cases hheader with
      | @mk l' cells hlen _ =>
        have hne : rowTexts (.mk .tableRow l' cells) ≠ [] := by
          rw [rowTexts, ← List.length_pos_iff, List.length_map]
          change 0 < cells.length
          omega
        have hcolumns : ∀ rows : List Layout.Row, (columnWidths alignments cells.length rows).length =
            (rowTexts (.mk .tableRow l' cells)).length := by
          intro rows
          simp [columnWidths, rowTexts, Node.children]
        obtain ⟨u, hu⟩ := rowLine_plain hne
          (hcolumns (rowTexts (.mk .tableRow l' cells) :: rows.map rowTexts))
        rw [blockLines, tableLines]
        exact ⟨'|', u, _, congrArg (· :: _) hu⟩

/-- The blocks of a document that was laid out show its nodes, and no definition is found. -/
theorem blocks_document {cols : Nat} {ns : List Node}
    (h : ∀ n ∈ ns, Renderable n ∧ BlockSound cols n) (hparted : parted ns = true) :
    ∃ bs, ShowsAll cols ns bs ∧ blocks (Layout.unlines (documentLines cols ns)) = (bs, []) := by
  by_cases hne : ns = []
  · subst hne
    exact ⟨[], .nil, rfl⟩
  have hone : ∀ l ∈ documentLines cols ns, OneLine l := by
    clear hparted hne
    induction ns with
    | nil => simp [documentLines]
    | cons n ns ih =>
      have hn := block_oneLines (h n (by simp)).1 (h n (by simp)).2
      cases ns with
      | nil => exact hn
      | cons m ns =>
        intro l hl
        rw [documentLines, List.mem_append, List.mem_cons] at hl
        rcases hl with hl | rfl | hl
        · exact hn l hl
        · exact oneLine_nil
        · exact ih (fun k hk => h k (by simp [hk])) l hl
  obtain ⟨s, bs, last, hshows, hcomplete, hreads⟩ :=
    document_reads h hparted (ready_idle []) (by simp) hne
  rw [List.append_nil] at hcomplete
  refine ⟨bs, hshows, ?_⟩
  have hrun : readBlocks ((documentLines cols ns).map fullLine).length .initial
      ((documentLines cols ns).map fullLine) = s := hreads.readBlocks rfl (Nat.le_refl _)
  simp only [blocks, lines_unlines hone, hrun, hcomplete.closes]
  simp [idle]

end CanonMark.Markdown
