import CanonMark.Proofs.Layout.Cells
import CanonMark.Proofs.Layout.Headings
import CanonMark.Proofs.Markdown.Steady

/-! # Headings and cells read back

Headings and cells are written on one line. A closing word of hashes in a heading is read as text
behind one more backslash, and each pipe in a cell is read without the backslash before it.
-/
namespace CanonMark.Markdown

open Layout (Ink Flat textInk textInks textInksFrom fixedInks runInks nodeInks inkText inkMarks escape
  shieldHashes trimFlatten headingLine literals isMarkup escapePipes paddedCell piped rowLine rowTexts
  compileCell cellText CellShape Compilable flattenedAll compile inlineText)

theorem head?_inkText (is : List Ink) : (inkText is).head? = is.head?.map Ink.first := by
  cases is with
  | nil => rfl
  | cons i is => cases i <;> rfl

theorem getLast?_inkText (is : List Ink) : (inkText is).getLast? = is.getLast?.map Ink.last := by
  rcases is.eq_nil_or_concat with rfl | ⟨front, i, rfl⟩
  · rfl
  · have hone : ∃ u, inkText [i] = u ++ [i.last] := by
      cases i with
      | shielded c => exact ⟨['\\'], rfl⟩
      | _ => exact ⟨[], rfl⟩
    obtain ⟨u, hu⟩ := hone
    rw [List.concat_eq_append, Layout.inkText_append, hu, ← List.append_assoc, List.getLast?_concat,
      List.getLast?_concat]
    rfl

theorem inkText_textInks (t : Text) : inkText (textInks false t) = escape t := by
  have hchar : ∀ u : Text, (Layout.breakable u).map Layout.Mark.char = u := by
    intro u
    have hone : ∀ c : Char, (if c = ' ' then Layout.Mark.gap else .glyph c).char = c := by
      intro c
      split
      · next h => exact h.symm
      · rfl
    simp only [Layout.breakable, List.map_map, Function.comp_def, hone, List.map_id']
  rw [← Layout.map_char_inkMarks, Layout.inkMarks_textInks, hchar]
  rfl

theorem shielded_mem_textInks {bang : Bool} {t : Text} {c : Char} (h : .shielded c ∈ textInks bang t) :
    c ≠ '|' ∧ c ≠ '#' := by
  obtain ⟨prev, x, rest, hink⟩ := Layout.mem_textInks h
  rw [textInk] at hink
  split at hink
  · cases hink
  · split at hink
    · next hm =>
      obtain rfl := Ink.shielded.inj hink
      constructor <;> rintro rfl <;> cases bang <;> cases hm
    · cases hink

theorem laid_hash {is : List Ink} (hshield : .shielded '#' ∉ is) (hfixed : .fixed '#' ∉ is)
    {front after : Text} (h : inkText is = front ++ '#' :: after) :
    Laid is (.ofText (front ++ '\\' :: '#' :: after)) := by
  induction is generalizing front with
  | nil => simp [inkText] at h
  | cons i is ih =>
    rw [List.mem_cons, not_or] at hshield hfixed
    have hcons : inkText (i :: is) = i.text ++ inkText is := rfl
    rw [hcons] at h
    cases i with
    | plain c =>
      cases front with
      | nil =>
        obtain ⟨rfl, rfl⟩ : c = '#' ∧ inkText is = after := by simpa [Ink.text] using h
        exact .slashed (by decide) (laid_ofText is)
      | cons x front =>
        obtain ⟨rfl, hrest⟩ : c = x ∧ inkText is = front ++ '#' :: after := by simpa [Ink.text] using h
        exact .plain rfl (ih hshield.2 hfixed.2 hrest)
    | shielded c =>
      rcases front with _ | ⟨x, _ | ⟨y, front⟩⟩
      · simp [Ink.text] at h
      · obtain ⟨-, rfl, -⟩ : '\\' = x ∧ c = '#' ∧ inkText is = after := by simpa [Ink.text] using h
        exact absurd rfl hshield.1
      · obtain ⟨rfl, rfl, hrest⟩ : '\\' = x ∧ c = y ∧ inkText is = front ++ '#' :: after := by
          simpa [Ink.text] using h
        exact .shielded (ih hshield.2 hfixed.2 hrest)
    | fixed c =>
      cases front with
      | nil =>
        obtain ⟨rfl, -⟩ : c = '#' ∧ inkText is = after := by simpa [Ink.text] using h
        exact absurd rfl hfixed.1
      | cons x front =>
        obtain ⟨rfl, hrest⟩ : c = x ∧ inkText is = front ++ '#' :: after := by simpa [Ink.text] using h
        exact .fixed rfl (ih hshield.2 hfixed.2 hrest)
    | gap =>
      cases front with
      | nil => simp [Ink.text] at h
      | cons x front =>
        obtain ⟨rfl, hrest⟩ : ' ' = x ∧ inkText is = front ++ '#' :: after := by simpa [Ink.text] using h
        exact .space (ih hshield.2 hfixed.2 hrest)

theorem laid_shieldHashes (t : Text) :
    Laid (textInks false t) (.ofText (shieldHashes (escape t))) := by
  rcases Layout.shieldHashes_cases (escape t) with ⟨front, after, hsplit, hshielded⟩ | hsame
  · rw [hshielded]
    refine laid_hash ?_ (Layout.fixed_not_mem_textInks false t '#') ((inkText_textInks t).trans hsplit)
    exact fun h => (shielded_mem_textInks h).2 rfl
  · rw [hsame, ← inkText_textInks]
    exact laid_ofText _

theorem isBlank_of_isSpacing {c : Char} (h : Text.isSpacing c = true) : Text.isBlank c = true := by
  simp only [Text.isSpacing, Bool.or_eq_true, beq_iff_eq] at h
  rcases h with ((rfl | rfl) | rfl) | rfl <;> decide

theorem head?_shieldHashes_escape {t : Text} {c : Char}
    (h : (shieldHashes (escape t)).head? = some c) : c = '\\' ∨ t.head? = some c := by
  have hescape : ∀ d, (escape t).head? = some d → d = '\\' ∨ t.head? = some d := by
    intro d hd
    cases t with
    | nil => cases hd
    | cons x t =>
      rw [escape, Layout.escapeFrom] at hd
      split at hd
      · exact .inl (Option.some.inj hd).symm
      · exact .inr hd
  rcases Layout.shieldHashes_cases (escape t) with ⟨front, after, hsplit, hshielded⟩ | hsame
  · rw [hshielded] at h
    cases front with
    | nil => exact .inl (Option.some.inj h).symm
    | cons x front => exact hescape c (by rw [hsplit]; exact h)
  · rw [hsame] at h
    exact hescape c h

/-- The hashes at the end of a text do not close a heading: they are part of a word, or have a
backslash before them. -/
theorem hashes_stay {s : Text} {c : Char} (hclosing : Layout.withoutClosing s = s)
    (hc : s.getLast? = some c) (hspace : c ≠ ' ') :
    (Text.dropEndWhile (· == '#') s).isEmpty = false ∧
      ((Text.dropEndWhile (· == '#') s).getLast? == some ' ') = false := by
  have hfront : (Text.dropEndWhile (· == '#') s).getLast?.all (· == ' ') = false := by
    by_contra hno
    have hall : (Text.dropEndWhile (· == '#') s).getLast?.all (· == ' ') = true := by simpa using hno
    have hsame : Layout.withoutClosing s = Text.dropEndWhile (· == '#') s := if_pos hall
    rw [← hsame, hclosing, hc] at hall
    simp [hspace] at hall
  cases hdropped : (Text.dropEndWhile (· == '#') s).getLast? with
  | none =>
    rw [hdropped] at hfront
    cases hfront
  | some d =>
    rw [hdropped] at hfront
    have hd : d ≠ ' ' := by simpa using hfront
    constructor
    · rw [List.isEmpty_eq_false_iff]
      intro hnil
      rw [hnil] at hdropped
      cases hdropped
    · simpa using hd

/-- Text without spacing at its ends and without hashes that close it is the content of a heading.
-/
theorem headingContent_text {s : Text} (hne : s ≠ [])
    (hhead : ∀ c ∈ s.head?, Text.isSpacing c = false)
    (hlast : ∀ c ∈ s.getLast?, Text.isSpacing c = false)
    (hclosing : Layout.withoutClosing s = s) : headingContent (' ' :: s) = .ofText s := by
  obtain ⟨c, hc⟩ : ∃ c, s.getLast? = some c := ⟨_, List.getLast?_eq_some_getLast hne⟩
  have hspacing := hlast c hc
  have hspace : c ≠ ' ' := by
    rintro rfl
    cases hspacing
  have hkept : s.dropWhile Text.isSpacing = s := by
    cases s with
    | nil => rfl
    | cons x u => exact List.dropWhile_cons_of_neg (by simp [hhead x rfl])
  have hcontent : Text.dropEndWhile (· == ' ') ((' ' :: s).dropWhile Text.isSpacing) = s := by
    have hskip : (' ' :: s).dropWhile Text.isSpacing = s.dropWhile Text.isSpacing := rfl
    rw [hskip, hkept]
    exact Layout.rdropWhile_of_getLast? (by rw [hc]; simpa using hspace)
  have hcore : Text.dropEndWhile Text.isSpacing s = s := by
    refine List.rdropWhile_eq_self_iff.mpr fun hpos hfirst => ?_
    rw [List.getLast?_eq_some_getLast hpos] at hc
    rw [Option.some.inj hc, hspacing] at hfirst
    cases hfirst
  obtain ⟨hbody, hend⟩ := hashes_stay hclosing hc hspace
  rw [headingContent, hcontent]
  simp only [hbody, hend, hcore, Bool.false_eq_true, if_false, if_true, List.append_nil]

theorem headingContent_line (level : Nat) (text : Text) :
    headingContent ((headingLine level text).drop level) =
      .ofText (shieldHashes (escape (trimFlatten text))) := by
  generalize hs : shieldHashes (escape (trimFlatten text)) = s
  have hdrop : (headingLine level text).drop level = if s.isEmpty then [] else ' ' :: s := by
    rw [headingLine, hs]
    exact List.drop_left' (by simp)
  rw [hdrop]
  by_cases hne : s = []
  · subst hne
    rfl
  · have hempty : s.isEmpty = false := by simpa using hne
    have hspacing : ∀ c, Text.isBlank c = false → Text.isSpacing c = false := by
      intro c hblank
      by_contra hspacing
      rw [isBlank_of_isSpacing (by simpa using hspacing)] at hblank
      cases hblank
    rw [hempty, if_neg (by simp)]
    apply headingContent_text hne
    · intro c hc
      rw [← hs] at hc
      rcases head?_shieldHashes_escape hc with rfl | hc
      · decide
      · exact hspacing c (Text.head?_strip hc)
    · intro c hc
      rw [← hs, Layout.getLast?_shieldHashes, escape, Layout.getLast?_escapeFrom] at hc
      exact hspacing c (Text.getLast?_dropEndWhile hc)
    · rw [← hs]
      exact Layout.withoutClosing_shieldHashes _

theorem headingNodes_settle (level : Nat) {text : Text} (h : readable (trimFlatten text) = true)
    {cs : List Node}
    (hcs : cs = contentNodes (headingContent ((headingLine level text).drop level))) :
    (∀ c ∈ cs, c.isText = true) ∧ trimFlatten (literals cs) = trimFlatten text := by
  rw [headingContent_line] at hcs
  by_cases hne : trimFlatten text = []
  · rw [hne] at hcs
    obtain rfl : cs = [] := hcs
    exact ⟨by simp, by rw [hne]; rfl⟩
  · have hlaid := laid_shieldHashes (trimFlatten text)
    obtain ⟨ss, last, hsays, hyields, -⟩ :=
      prose_reads h (Layout.flat_trimFlatten text) '\n' hlaid (stops_nil false)
    have hspans := (hyields.weaken true).plainSpans_eq (settles_spans ss)
    obtain ⟨u, hnodes, hu⟩ := hsays.nodes hne [] (by simp)
    rw [contentNodes, hspans, hnodes, List.nil_append] at hcs
    have hone : literals [Node.ofText u] = u := List.append_nil u
    subst hcs
    exact ⟨by simp [Node.ofText, Node.leaf, Node.isText, Node.kind], by rw [hone, trimFlatten_of_unbroken hu]⟩

theorem shielded_not_mem_fixedInks (c : Char) (t : Text) : .shielded c ∉ fixedInks t := by
  simp [fixedInks]

theorem pipe_not_mem_tailInks (d t : Text) : .shielded '|' ∉ Layout.tailInks d t := by
  have htitle : .shielded '|' ∉ t.map Layout.titleInk := by
    rw [List.mem_map]
    rintro ⟨x, -, hx⟩
    rw [Layout.titleInk] at hx
    split at hx
    · next hmark =>
      obtain rfl := Ink.shielded.inj hx
      cases hmark
    · split at hx <;> cases hx
  have hinks : .shielded '|' ∉ Layout.titleInks t := by
    rw [Layout.titleInks]
    split
    · exact List.not_mem_nil
    · simp [htitle]
  simp [Layout.tailInks, hinks, shielded_not_mem_fixedInks]

theorem pipe_not_mem_textInks (bang : Bool) (t : Text) : .shielded '|' ∉ textInks bang t :=
  fun h => (shielded_mem_textInks h).1 rfl

mutual
theorem pipe_not_mem_nodeInks (beforeLink : Bool) : ∀ n, .shielded '|' ∉ nodeInks beforeLink n
  | .mk k l cs => by
    cases k with
    | text => exact pipe_not_mem_textInks _ _
    | emphasis =>
      simp [nodeInks, Layout.delimitedInks, shielded_not_mem_fixedInks, pipe_not_mem_textInks]
    | strong =>
      simp [nodeInks, Layout.delimitedInks, shielded_not_mem_fixedInks, pipe_not_mem_textInks]
    | code => exact shielded_not_mem_fixedInks _ _
    | link d t =>
      rw [nodeInks]
      split
      · exact shielded_not_mem_fixedInks _ _
      · have hinner := pipe_not_mem_runInks cs
        simp [hinner, shielded_not_mem_fixedInks, pipe_not_mem_tailInks]
    | image d t =>
      simp [nodeInks, shielded_not_mem_fixedInks, pipe_not_mem_tailInks, pipe_not_mem_textInks]
    | _ => simp [nodeInks]

theorem pipe_not_mem_runInks : ∀ ns, .shielded '|' ∉ runInks ns
  | [] => by simp [runInks]
  | n :: ns => by
    have hone := pipe_not_mem_nodeInks (ns.head?.any (·.kind.isLink)) n
    have hmore := pipe_not_mem_runInks ns
    simp [runInks, hone, hmore]
end

theorem cellContent_cons {c : Char} {t : Text} (h : c = '\\' → t.head? ≠ some '|') :
    cellContent (c :: t) = .char c :: cellContent t := by
  rw [cellContent]
  rintro u rfl rfl
  exact h rfl rfl

theorem laid_cell {is : List Ink} (h : .shielded '|' ∉ is) :
    Laid is (cellContent (escapePipes (inkText is))) := by
  induction is with
  | nil => exact .nil
  | cons i is ih =>
    rw [List.mem_cons, not_or] at h
    have hrest := ih h.2
    have hcons : inkText (i :: is) = i.text ++ inkText is := rfl
    have hhead := Layout.head?_escapePipes (inkText is)
    have hplain : ∀ c, c ≠ '|' → cellContent (escapePipes (c :: inkText is)) =
        .char c :: cellContent (escapePipes (inkText is)) := by
      intro c hc
      rw [Layout.escapePipes_cons, if_neg hc]
      exact cellContent_cons fun _ => hhead
    have hpipe : cellContent (escapePipes ('|' :: inkText is)) =
        .pipe :: cellContent (escapePipes (inkText is)) := rfl
    rw [hcons]
    cases i with
    | plain c =>
      by_cases hc : c = '|'
      · subst hc
        exact .plain rfl hrest
      · have hone : cellContent (escapePipes ((Ink.plain c).text ++ inkText is)) =
            .char c :: cellContent (escapePipes (inkText is)) := hplain c hc
        rw [hone]
        exact .plain rfl hrest
    | fixed c =>
      by_cases hc : c = '|'
      · subst hc
        exact .fixed rfl hrest
      · have hone : cellContent (escapePipes ((Ink.fixed c).text ++ inkText is)) =
            .char c :: cellContent (escapePipes (inkText is)) := hplain c hc
        rw [hone]
        exact .fixed rfl hrest
    | shielded c =>
      have hc : c ≠ '|' := by
        rintro rfl
        exact h.1 rfl
      have hslash : cellContent (escapePipes ('\\' :: c :: inkText is)) =
          .char '\\' :: cellContent (escapePipes (c :: inkText is)) := by
        rw [Layout.escapePipes_cons, if_neg (by decide)]
        refine cellContent_cons fun _ => ?_
        rw [Layout.escapePipes_cons, if_neg hc]
        simpa using hc
      have hone : cellContent (escapePipes ((Ink.shielded c).text ++ inkText is)) =
          .char '\\' :: .char c :: cellContent (escapePipes (inkText is)) := by
        rw [← hplain c hc]
        exact hslash
      rw [hone]
      exact .shielded hrest
    | gap =>
      have hone : cellContent (escapePipes (Ink.gap.text ++ inkText is)) =
          .char ' ' :: cellContent (escapePipes (inkText is)) := hplain ' ' (by decide)
      rw [hone]
      exact .space hrest

theorem trimSpacing_padding {t : Text} (hhead : ∀ c ∈ t.head?, Text.isSpacing c = false)
    (hlast : ∀ c ∈ t.getLast?, Text.isSpacing c = false) (n : Nat) :
    trimSpacing (' ' :: (t ++ List.replicate n ' ')) = t := by
  have hskip : (' ' :: (t ++ List.replicate n ' ')).dropWhile Text.isSpacing =
      (t ++ List.replicate n ' ').dropWhile Text.isSpacing := rfl
  have hpadding : ∀ (v : Text) (m : Nat), (v ++ List.replicate m ' ').rdropWhile Text.isSpacing =
      v.rdropWhile Text.isSpacing := by
    intro v m
    induction m with
    | zero => rw [List.replicate_zero, List.append_nil]
    | succ m ih =>
      rw [List.replicate_succ', ← List.append_assoc, List.rdropWhile_concat_pos _ _ _ rfl, ih]
  rw [trimSpacing, hskip]
  cases t with
  | nil =>
    have hblank : (List.replicate n ' ').dropWhile Text.isSpacing = [] := by
      rw [List.dropWhile_eq_nil_iff]
      intro c hc
      rw [List.eq_of_mem_replicate hc]
      rfl
    rw [List.nil_append, hblank]
    rfl
  | cons c u =>
    have hkept : (c :: u ++ List.replicate n ' ').dropWhile Text.isSpacing =
        c :: u ++ List.replicate n ' ' := by
      rw [List.cons_append]
      exact List.dropWhile_cons_of_neg (by simp [hhead c rfl])
    rw [hkept]
    refine (hpadding (c :: u) n).trans (List.rdropWhile_eq_self_iff.mpr fun hne hspacing => ?_)
    rw [hlast _ (List.getLast?_eq_some_getLast hne)] at hspacing
    cases hspacing

/-- A run in a cell that is read back. Cells are written as they are, so its texts must be flat. -/
@[mk_iff] structure SteadyCell (cs : List Node) : Prop where
  flat : flattenedAll cs = cs
  steady : areSteady '\n' '\n' cs = true
  starts : ∀ i ∈ (runInks cs).head?, Text.isSpacing i.first = false
  ends : ∀ i ∈ (runInks cs).getLast?, Text.isSpacing i.last = false

instance (cs : List Node) : Decidable (SteadyCell cs) :=
  decidable_of_iff _ (steadyCell_iff cs).symm

/-- Cells that compile to the same, as long as no line ends within a title. -/
def CellsAlike (m n : Node) : Prop := wholeTitles m = true → compileCell m = compileCell n

def fieldContent (field : Text) : Content := cellContent (trimSpacing field)

section

variable {cs : List Node} (h : SteadyCell cs) (hcs : ∀ c ∈ cs, Compilable c)
include h hcs

theorem SteadyCell.compile_eq : compile cs = .ok (inkMarks (runInks cs)) := by
  have hcompile := compile_steady cs hcs h.steady
  rwa [h.flat] at hcompile

theorem SteadyCell.cellText_eq (l : Text) :
    cellText (.mk .tableCell l cs) = escapePipes (inkText (runInks cs)) := by
  rw [cellText, compileCell, inlineText, h.compile_eq hcs, ← Layout.map_char_inkMarks]
  rfl

/-- The cell that is read from the field of a cell compiles to the same. -/
theorem SteadyCell.reads_back (l : Text) (width : Nat) :
    CellsAlike (cellNode (fieldContent (paddedCell (cellText (.mk .tableCell l cs)) width)))
      (.mk .tableCell l cs) := by
  have hhead : ∀ c ∈ (escapePipes (inkText (runInks cs))).head?, Text.isSpacing c = false := by
    intro c hc
    cases htext : inkText (runInks cs) with
    | nil =>
      rw [htext] at hc
      cases hc
    | cons x u =>
      rw [htext, Layout.escapePipes_cons] at hc
      split at hc
      · obtain rfl := Option.some.inj hc
        decide
      · obtain rfl := Option.some.inj hc
        have hfirst := head?_inkText (runInks cs)
        rw [htext] at hfirst
        obtain ⟨i, hi, hx⟩ := Option.map_eq_some_iff.mp hfirst.symm
        rw [← hx]
        exact h.starts i hi
  have hlast : ∀ c ∈ (escapePipes (inkText (runInks cs))).getLast?, Text.isSpacing c = false := by
    intro c hc
    rcases (inkText (runInks cs)).eq_nil_or_concat with htext | ⟨u, x, htext⟩
    · rw [htext] at hc
      cases hc
    · rw [List.concat_eq_append] at htext
      obtain ⟨v, hv, -⟩ := Layout.escapePipes_concat u x
      rw [htext, hv, List.getLast?_concat] at hc
      obtain rfl := Option.some.inj hc
      have hend := getLast?_inkText (runInks cs)
      rw [htext, List.getLast?_concat] at hend
      obtain ⟨i, hi, hx⟩ := Option.map_eq_some_iff.mp hend.symm
      rw [← hx]
      exact h.ends i hi
  have hlaid := laid_cell (pipe_not_mem_runInks cs)
  have hechoes := contentNodes_laid hcs h.steady hlaid
  rw [fieldContent, h.cellText_eq hcs, paddedCell, trimSpacing_padding hhead hlast, cellNode]
  intro hwhole
  have hcompile := compile_echoes hechoes (children_whole hwhole)
  rw [h.flat] at hcompile
  change _ <$> inlineText _ = _ <$> inlineText cs
  rw [inlineText, hcompile, inlineText]

end

def SteadyRow (row : Node) : Prop := ∀ cell ∈ row.children, SteadyCell cell.children

instance (row : Node) : Decidable (SteadyRow row) :=
  inferInstanceAs (Decidable (∀ cell ∈ row.children, SteadyCell cell.children))

theorem cells_rowLine (texts : List Text) (widths : List Nat) :
    cells (rowLine (texts.map escapePipes) widths) =
      (List.zipWith paddedCell (texts.map escapePipes) widths).map fieldContent := by
  rw [Layout.rowLine_eq_piped]
  generalize hfields : List.zipWith paddedCell (texts.map escapePipes) widths = fields
  have hcut : Layout.CutInto (piped fields) fields := by
    rw [← hfields]
    exact Layout.cutInto_piped (Layout.uncut_fields texts widths)
  obtain ⟨u, hu⟩ : ∃ u, piped fields = '|' :: u := by
    cases fields with
    | nil => exact ⟨_, rfl⟩
    | cons field fields => exact ⟨_, Layout.piped_cons field fields⟩
  have hpieces : splitAtPipes false u = fields ++ [[]] := by
    rw [Layout.CutInto, hu] at hcut
    exact (List.cons.inj hcut).2
  have hdrop : ('|' :: u).dropWhile Text.isSpacing = '|' :: u := rfl
  have hblank : isBlankText [] = true := rfl
  rw [hu, cells, hdrop]
  simp only [List.head?_cons, beq_self_eq_true, if_true, List.drop_one, List.tail_cons, hpieces,
    List.getLast?_concat, Option.all_some, hblank, List.dropLast_concat]
  rfl

theorem cells_read_back {cells : List Node} {widths : List Nat}
    (h : ∀ cell ∈ cells, CellShape cell ∧ SteadyCell cell.children)
    (hlen : widths.length = cells.length) :
    List.Forall₂ CellsAlike
      (((List.zipWith paddedCell (cells.map cellText) widths).map fieldContent).map cellNode)
      cells := by
  induction cells generalizing widths with
  | nil => exact .nil
  | cons cell cells ih =>
    cases widths with
    | nil => cases hlen
    | cons width widths =>
      have hrest := ih (fun c hc => h c (List.mem_cons_of_mem cell hc)) (Nat.succ.inj hlen)
      obtain ⟨hshape, hsteady⟩ := h cell List.mem_cons_self
      cases hshape with
      | mk l hcs => exact .cons (hsteady.reads_back hcs l width) hrest

/-- The cells that are read from a row compile to what the cells of the row compile to. -/
theorem row_reads_back {columns : Nat} {row : Node} (hshape : Layout.RowShape columns row)
    (h : SteadyRow row) {widths : List Nat} (hlen : widths.length = columns) :
    List.Forall₂ CellsAlike ((shownRow widths row).map cellNode) row.children := by
  cases hshape with
  | @mk l cs hcount hcells =>
    have hall : ∀ cell ∈ cs, CellShape cell ∧ SteadyCell cell.children :=
      fun cell hcell => ⟨hcells cell hcell, h cell hcell⟩
    obtain ⟨texts, htexts⟩ : ∃ texts : List Text, cs.map cellText = texts.map escapePipes := by
      refine ⟨cs.map fun cell => inkText (runInks cell.children), ?_⟩
      rw [List.map_map]
      refine List.map_congr_left fun cell hcell => ?_
      obtain ⟨hshape, hsteady⟩ := hall cell hcell
      cases hshape with
      | mk l hcs => exact hsteady.cellText_eq hcs l
    have hread := cells_read_back hall (hlen.trans hcount.symm)
    have hrow : shownRow widths (.mk .tableRow l cs) =
        (List.zipWith paddedCell (cs.map cellText) widths).map fieldContent := by
      have hfields : (List.zipWith paddedCell (cs.map cellText) widths).length = widths.length := by
        rw [List.length_zipWith, List.length_map]
        omega
      have hcells : cells (rowLine (rowTexts (.mk .tableRow l cs)) widths) =
          (List.zipWith paddedCell (cs.map cellText) widths).map fieldContent := by
        have hline := cells_rowLine texts widths
        rwa [← htexts] at hline
      rw [shownRow, hcells, fitRow, List.length_map, hfields, Nat.sub_self, List.replicate_zero,
        List.append_nil, List.take_of_length_le (by simp)]
    rw [hrow]
    exact hread

end CanonMark.Markdown
