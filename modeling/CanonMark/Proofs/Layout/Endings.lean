import CanonMark.Format
import CanonMark.Proofs.Layout.Autolinks
import CanonMark.Proofs.Layout.Headings
import CanonMark.Proofs.Layout.Lines
import CanonMark.Proofs.Markdown.Levels
import CanonMark.Proofs.Markdown.Lists
import CanonMark.Proofs.Markdown.Trees

/-! # How documents end

An empty line stands behind every block, and the last one is taken away. A paragraph of spaces and
line feeds is written as nothing, but its empty line is written too, and only one is taken away.
Main statement: a document begins with no line feed and ends with one exactly if no block of this
kind stands first or last, or at most two blocks are there and all are of this kind.
-/
namespace CanonMark.Layout

/-- A text that does not begin with a line feed and ends with one only. -/
def EndsOnce (t : Text) : Prop := t.head? ≠ some '\n' ∧ ∃ body c, t = body ++ [c, '\n'] ∧ c ≠ '\n'

mutual
/-- Whether nothing is written for a node. A quote has marks around the gaps between its children,
and for no child at all. -/
def silent : Node → Bool
  | .mk .text l _ => l.all fun c => c == ' ' || c == '\n'
  | .mk .paragraph _ cs => silentAll cs
  | .mk .quote _ cs => cs.length == 1 && silentAll cs
  | .mk (.list _) _ cs => silentAll cs
  | .mk .item _ cs => silentAll cs
  | _ => false

def silentAll : List Node → Bool
  | [] => true
  | n :: ns => silent n && silentAll ns
end

def Shown (nothing : Bool) (t : Text) : Prop := if nothing then t = [] else EndsOnce t

theorem EndsOnce.ne_nil {t : Text} (h : EndsOnce t) : t ≠ [] := by
  obtain ⟨-, body, c, rfl, -⟩ := h
  simp

theorem EndsOnce.append {s t : Text} (hs : EndsOnce s) (ht : EndsOnce t) : EndsOnce (s ++ t) := by
  obtain ⟨-, body, c, rfl, hc⟩ := ht
  refine ⟨?_, s ++ body, c, by simp, hc⟩
  rw [List.head?_append_of_ne_nil _ hs.ne_nil]
  exact hs.1

theorem not_endsOnce (t : Text) : ¬ EndsOnce (t ++ ['\n', '\n']) := by
  rintro ⟨-, body, c, h, hc⟩
  have hlast := (List.append_inj' h rfl).2
  simp only [List.cons.injEq, and_true] at hlast
  exact hc hlast.symm

theorem Shown.append {a b : Bool} {s t : Text} (hs : Shown a s) (ht : Shown b t) :
    Shown (a && b) (s ++ t) := by
  cases a with
  | true =>
    obtain rfl : s = [] := hs
    exact ht
  | false =>
    have hs' : EndsOnce s := hs
    cases b with
    | true =>
      obtain rfl : t = [] := ht
      rw [List.append_nil]
      exact hs'
    | false => exact hs'.append ht

theorem shown_eq_nil {nothing : Bool} {t : Text} (h : Shown nothing t) : t = [] ↔ nothing = true := by
  cases nothing with
  | true => exact ⟨fun _ => rfl, fun _ => h⟩
  | false =>
    have hends : EndsOnce t := h
    simp [hends.ne_nil]

theorem Shown.nil_or_endsOnce {nothing : Bool} {t : Text} (h : Shown nothing t) :
    t = [] ∨ EndsOnce t := by
  cases nothing with
  | true => exact .inl h
  | false => exact .inr h

/-- A text that neither begins nor ends with a line feed. Between its ends a title may have some. -/
structure Edged (t : Text) : Prop where
  first : t.head? ≠ some '\n'
  last : t.getLast? ≠ some '\n'

theorem edged_of_not_mem {t : Text} (h : '\n' ∉ t) : Edged t :=
  ⟨fun hc => h (List.mem_of_mem_head? hc), fun hc => h (List.mem_of_mem_getLast? hc)⟩

theorem edged_between {a b : Char} (ha : a ≠ '\n') (hb : b ≠ '\n') (t : Text) :
    Edged (a :: t ++ [b]) :=
  ⟨by simpa using ha, by rw [List.getLast?_concat]; simpa using hb⟩

theorem Edged.append {s t : Text} (hs : Edged s) (ht : Edged t) : Edged (s ++ t) := by
  cases s with
  | nil => exact ht
  | cons c s =>
    cases t with
    | nil => rwa [List.append_nil]
    | cons d t =>
      refine ⟨hs.first, ?_⟩
      rw [List.getLast?_append_of_ne_nil _ (List.cons_ne_nil d t)]
      exact ht.last

theorem edged_of_markBreaks {ms : List Mark} (h : markBreaks ms = 0) : Edged (glyphs ms) := by
  refine edged_of_not_mem fun hmem => ?_
  rw [← flatten_segments, ← List.flatten_filter_not_isEmpty] at hmem
  have hcount := innerBreaks_tokens ms
  rw [h, innerBreaks, List.count_eq_zero] at hcount
  exact hcount hmem

theorem edged_tail {a : Char} (ha : a ≠ '\n') (ms : List Mark) (d t : Text) :
    Edged (glyphs (.glyph a :: (ms ++ linkTail d t))) := by
  have hlast : breakable [')'] = [Mark.glyph ')'] := rfl
  rw [linkTail, hlast, ← List.append_assoc, ← List.cons_append, glyphs_append]
  exact edged_between ha (by decide) _

theorem textMarks_silent (beforeLink : Bool) (l : Text) :
    glyphs (textMarks beforeLink l) = [] ↔ (l.all fun c => c == ' ' || c == '\n') = true := by
  have hunbroken : (∀ c ∈ unbroken l, c = ' ') ↔ ∀ c ∈ l, c = ' ' ∨ c = '\n' := by
    simp only [unbroken, List.forall_mem_map]
    refine forall_congr' fun c => forall_congr' fun _ => ?_
    by_cases hc : c = '\n' <;> simp [hc]
  have hescape : (∀ c ∈ escape (unbroken l), c = ' ') ↔ ∀ c ∈ unbroken l, c = ' ' := by
    constructor
    · exact fun h c hc => h c (mem_escapeFrom hc none)
    · intro h
      rwa [escape, escapeFrom_spaces h]
  have hbang : (∀ c ∈ shieldBang beforeLink (escape (unbroken l)), c = ' ') ↔
      ∀ c ∈ escape (unbroken l), c = ' ' := by
    unfold shieldBang
    split
    · next hlast =>
      simp only [Bool.and_eq_true, beq_iff_eq] at hlast
      have hmem := List.mem_of_mem_getLast? hlast.2
      constructor
      · intro h
        exact absurd (h '!' (by simp)) (by decide)
      · intro h
        exact absurd (h '!' hmem) (by decide)
    · rfl
  rw [textMarks, glyphs_breakable, List.filter_eq_nil_iff, List.all_eq_true]
  simpa using hbang.trans (hescape.trans hunbroken)

theorem compileNode_glyphs {beforeLink : Bool} {n : Node} {ms : List Mark}
    (h : compileNode beforeLink n = .ok ms) :
    Edged (glyphs ms) ∧ (glyphs ms = [] ↔ silent n = true) := by
  obtain ⟨k, l, cs⟩ := n
  cases k with
  | text =>
    obtain rfl := Except.ok.inj h
    refine ⟨edged_of_not_mem fun hmem => ?_, textMarks_silent beforeLink l⟩
    rw [textMarks, glyphs_breakable] at hmem
    exact newline_not_mem_shieldBang beforeLink
      (newline_not_mem_escapeFrom none (newline_not_mem_unbroken l)) (List.mem_filter.mp hmem).1
  | emphasis =>
    refine ⟨edged_of_markBreaks (markBreaks_delimited (by decide) h), ?_⟩
    have hstar := mem_glyphs (star_mem_delimited (by decide) h)
    simp [silent, List.ne_nil_of_mem hstar]
  | strong =>
    refine ⟨edged_of_markBreaks (markBreaks_delimited (by decide) h), ?_⟩
    have hstar := mem_glyphs (star_mem_delimited (by decide) h)
    simp [silent, List.ne_nil_of_mem hstar]
  | code =>
    obtain rfl := Except.ok.inj h
    rw [glyphs_solid]
    exact ⟨edged_of_not_mem (newline_not_mem_codeSpan l), by simp [silent, codeSpan_ne_nil]⟩
  | image destination title =>
    obtain rfl := Except.ok.inj h
    refine ⟨edged_tail (by decide) _ destination title, ?_⟩
    simp [silent, imageMarks, breakable, glyphs]
  | link destination title =>
    obtain ⟨-, inner, -, rfl⟩ := compileNode_link_ok h
    rw [linkMarks]
    split
    · rw [glyphs_solid]
      exact ⟨edged_between (by decide) (by decide) _, by simp [silent]⟩
    · rw [List.append_assoc]
      exact ⟨edged_tail (by decide) _ destination title, by simp [silent, breakable, glyphs]⟩
  | _ => cases h

theorem compile_glyphs {ns : List Node} {ms : List Mark} (h : compile ns = .ok ms) :
    Edged (glyphs ms) ∧ (glyphs ms = [] ↔ silentAll ns = true) := by
  induction ns generalizing ms with
  | nil =>
    obtain rfl := Except.ok.inj h
    exact ⟨edged_of_not_mem (by simp [glyphs]), by simp [glyphs, silentAll]⟩
  | cons n ns ih =>
    obtain ⟨first, rest, hfirst, hrest, rfl⟩ := compile_cons_ok h
    obtain ⟨hedge, hsilent⟩ := compileNode_glyphs hfirst
    obtain ⟨hedge', hsilent'⟩ := ih hrest
    rw [glyphs_append, List.append_eq_nil_iff, hsilent, hsilent', silentAll, Bool.and_eq_true]
    exact ⟨hedge.append hedge', Iff.rfl⟩

/-- The tokens of a run do not begin or end with a line feed together, and there are none exactly if
the run is silent. -/
theorem runTokens_edged {cs : List Node} (h : ∀ c ∈ cs, Compilable c) :
    Edged (runTokens cs).flatten ∧ (runTokens cs = [] ↔ silentAll cs = true) := by
  have htokens := inlineTokens_eq h
  cases hms : compile cs with
  | error e =>
    rw [inlineTokens, hms] at htokens
    cases htokens
  | ok ms =>
    rw [inlineTokens, hms] at htokens
    have heq : tokens ms = runTokens cs := Except.ok.inj htokens
    obtain ⟨hedge, hsilent⟩ := compile_glyphs hms
    have hflat : (runTokens cs).flatten = glyphs ms := by
      rw [← heq, tokens, List.flatten_filter_not_isEmpty, flatten_segments]
    rw [hflat, ← hsilent, ← hflat, List.flatten_eq_nil_iff]
    refine ⟨hflat ▸ hedge, ?_⟩
    constructor
    · intro hnil
      simp [hnil]
    · intro hall
      refine List.eq_nil_iff_forall_not_mem.mpr fun t ht => ?_
      exact runTokens_nonempty cs t ht (hall t ht)

theorem head?_escapeLineStart {t : Text} (h : t.head? ≠ some '\n') :
    (escapeLineStart t).head? ≠ some '\n' := by
  unfold escapeLineStart
  split
  · next hmark =>
    obtain ⟨digits, d, rfl, -, -, hne⟩ := orderedMarker_parts hmark
    rw [List.head?_append_of_ne_nil _ hne] at h
    rw [List.dropLast_concat, List.head?_append_of_ne_nil _ hne]
    exact h
  · split
    · simp
    · exact h

theorem getLast?_escapeLineStart (t : Text) : (escapeLineStart t).getLast? = t.getLast? := by
  unfold escapeLineStart
  split
  · next hmark =>
    obtain ⟨digits, d, rfl, -, -, -⟩ := orderedMarker_parts hmark
    simp
  · split
    · next hlead =>
      cases t with
      | nil => cases hlead
      | cons c t => rfl
    · rfl

theorem escapeLineStart_ne_nil {t : Text} (h : t ≠ []) : escapeLineStart t ≠ [] := by
  intro hnil
  have hlast := getLast?_escapeLineStart t
  rw [hnil, List.getLast?_nil] at hlast
  exact h (List.getLast?_eq_none_iff.mp hlast.symm)

theorem getLast?_lineBody {g : List Text} (hne : ∀ t ∈ g, t ≠ []) :
    (lineBody g).getLast? = g.flatten.getLast? := by
  cases g with
  | nil => rfl
  | cons t ts =>
    rw [lineBody, List.flatten_cons]
    rcases List.eq_nil_or_concat ts with rfl | ⟨front, u, rfl⟩
    · simp [getLast?_escapeLineStart]
    · have hu : u ≠ [] := hne u (by simp)
      have htail : spacedTail (front ++ [u]) = spacedTail front ++ [' '] ++ u := by simp [spacedTail]
      rw [List.concat_eq_append, htail, List.flatten_append, List.flatten_singleton,
        ← List.append_assoc, List.getLast?_append_of_ne_nil _ hu, ← List.append_assoc,
        List.getLast?_append_of_ne_nil _ hu]

theorem head?_append_ne {s t : Text} {c : Char} (hs : s.head? ≠ some c) (ht : t.head? ≠ some c) :
    (s ++ t).head? ≠ some c := by
  cases s with
  | nil => exact ht
  | cons d s => exact hs

theorem endsOnce_unlines {l m : Text} {ls ms : List Text} (hfirst : l ≠ [] ∧ l.head? ≠ some '\n')
    (hlast : m ≠ [] ∧ m.getLast? ≠ some '\n') (h : l :: ls = ms ++ [m]) :
    EndsOnce (unlines (l :: ls)) := by
  refine ⟨?_, ?_⟩
  · rw [unlines_cons, List.head?_append_of_ne_nil _ hfirst.1]
    exact hfirst.2
  · obtain ⟨hne, hend⟩ := hlast
    rcases List.eq_nil_or_concat m with rfl | ⟨front, c, rfl⟩
    · exact absurd rfl hne
    · refine ⟨unlines ms ++ front, c, by simp [h], ?_⟩
      rintro rfl
      exact hend (by simp)

theorem endsOnce_line {l : Text} (hne : l ≠ []) (h : Edged l) : EndsOnce (unlines [l]) :=
  endsOnce_unlines ⟨hne, h.first⟩ ⟨hne, h.last⟩ (List.nil_append [l]).symm

theorem lineBody_ne_nil {g : List Text} (hg : g ≠ []) (hne : ∀ t ∈ g, t ≠ []) : lineBody g ≠ [] := by
  cases g with
  | nil => exact absurd rfl hg
  | cons t ts =>
    rw [lineBody]
    exact List.append_ne_nil_of_left_ne_nil (escapeLineStart_ne_nil (hne t (by simp))) _

theorem endsOnce_groupLines {margin : Margin} {gs : List (List Text)} (hgs : gs ≠ [])
    (hgroups : ∀ g ∈ gs, g ≠ []) (htokens : ∀ t ∈ gs.flatten, t ≠ [])
    (hmargin : margin.first.head? ≠ some '\n') (hedge : Edged gs.flatten.flatten) :
    EndsOnce (unlines (groupLines margin gs)) := by
  cases gs with
  | nil => exact absurd rfl hgs
  | cons g gs =>
    have hbody : ∀ g' ∈ g :: gs, lineBody g' ≠ [] := by
      intro g' hg'
      exact lineBody_ne_nil (hgroups g' hg') fun t ht =>
        htokens t (List.mem_flatten_of_mem hg' ht)
    have hfirst : margin.first ++ lineBody g ≠ [] ∧
        (margin.first ++ lineBody g).head? ≠ some '\n' := by
      refine ⟨List.append_ne_nil_of_right_ne_nil _ (hbody g (by simp)), head?_append_ne hmargin ?_⟩
      cases g with
      | nil => exact absurd rfl (hgroups [] (by simp))
      | cons t ts =>
        have ht : t ≠ [] := htokens t (by simp)
        have hhead := hedge.first
        rw [List.flatten_cons, List.cons_append, List.flatten_cons,
          List.head?_append_of_ne_nil _ ht] at hhead
        rw [lineBody, List.head?_append_of_ne_nil _ (escapeLineStart_ne_nil ht)]
        exact head?_escapeLineStart hhead
    -- the last group ends as all tokens do, whatever margin its line has
    have hlast : ∀ z zs m, g :: gs = zs ++ [z] →
        m ++ lineBody z ≠ [] ∧ (m ++ lineBody z).getLast? ≠ some '\n' := by
      intro z zs m hz
      have hmem : z ∈ g :: gs := by simp [hz]
      have hz' := hbody z hmem
      refine ⟨List.append_ne_nil_of_right_ne_nil _ hz', ?_⟩
      have htokens' : ∀ t ∈ z, t ≠ [] := fun t ht => htokens t (List.mem_flatten_of_mem hmem ht)
      have hflat : z.flatten ≠ [] := by
        intro hnil
        rw [← List.getLast?_eq_none_iff, ← getLast?_lineBody htokens',
          List.getLast?_eq_none_iff] at hnil
        exact hz' hnil
      have hend := hedge.last
      rw [hz, List.flatten_append, List.flatten_singleton, List.flatten_append,
        List.getLast?_append_of_ne_nil _ hflat] at hend
      rwa [List.getLast?_append_of_ne_nil _ hz', getLast?_lineBody htokens']
    rcases List.eq_nil_or_concat gs with rfl | ⟨front, z, rfl⟩
    · exact endsOnce_unlines hfirst (hlast g [] margin.first rfl) (List.nil_append _).symm
    · have hlines : (margin.first ++ lineBody g) :: (front.concat z).map (margin.later ++ lineBody ·) =
          ((margin.first ++ lineBody g) :: front.map (margin.later ++ lineBody ·)) ++
            [margin.later ++ lineBody z] := by simp
      exact endsOnce_unlines hfirst (hlast z (g :: front) margin.later (by simp)) hlines

theorem shown_fill (cols : Nat) {margin : Margin} (hmargin : margin.first.head? ≠ some '\n')
    {cs : List Node} (h : ∀ c ∈ cs, Compilable c) :
    Shown (silentAll cs) (unlines (fillLines cols margin (runTokens cs))) := by
  obtain ⟨hedge, hsilent⟩ := runTokens_edged h
  have htokens := runTokens_nonempty cs
  rw [unlines_fillLines _ _ _ htokens, fill_eq_unlines _ _ _ htokens]
  cases hs : silentAll cs with
  | true =>
    rw [hsilent.mpr hs]
    rfl
  | false =>
    have hne : runTokens cs ≠ [] := by
      rw [Ne, hsilent, hs]
      simp
    have hflat := cut_flatten cols margin (runTokens cs)
    exact endsOnce_groupLines (cut_ne_nil hne) (cut_nonempty cols margin _) (hflat.symm ▸ htokens)
      hmargin (hflat.symm ▸ hedge)

theorem endsOnce_quoteMargin {margin : Text} (hm : margin.head? ≠ some '\n') :
    EndsOnce (margin ++ "> ".toList ++ ['\n']) := by
  have hmark := head?_append_ne hm (show "> ".toList.head? ≠ some '\n' by decide)
  refine ⟨?_, margin ++ ['>'], ' ', by simp, by decide⟩
  rwa [List.head?_append_of_ne_nil _ (by simp)]

theorem EndsOnce.margin_head {margin : Text} (h : EndsOnce (margin ++ ['\n'])) :
    margin.head? ≠ some '\n' := by
  cases margin with
  | nil => exact absurd rfl h.1
  | cons c margin => exact h.1

mutual
theorem quotedLines_shown (cols : Nat) {margin : Text} (hm : margin.head? ≠ some '\n') :
    ∀ {n : Node}, Quotable n → Shown (silent n) (unlines (quotedLines cols margin n))
  | .mk .paragraph l cs, h => by
    cases h with
    | paragraph _ h => exact shown_fill cols hm h
  | .mk .quote l [], h => by
    have hends := endsOnce_quoteMargin hm
    simpa [Shown, silent, quotedLines] using hends
  | .mk .quote l (c :: cs), h => by
    cases h with
    | quote _ h => exact quoteBody_shown cols (endsOnce_quoteMargin hm) (List.cons_ne_nil c cs) h

theorem quoteBody_shown (cols : Nat) {margin : Text} (hm : EndsOnce (margin ++ ['\n'])) :
    ∀ {ns : List Node}, ns ≠ [] → (∀ n ∈ ns, Quotable n) →
      Shown (ns.length == 1 && silentAll ns) (unlines (quoteBody cols margin ns))
  | [], hne, _ => absurd rfl hne
  | [n], _, h => by
    have hn := quotedLines_shown cols hm.margin_head (h n (by simp))
    simpa [silentAll, quoteBody] using hn
  | n :: m :: ns, _, h => by
    have hn := quotedLines_shown cols hm.margin_head (h n (by simp))
    have hgap : Shown false (margin ++ ['\n']) := hm
    have hrest := quoteBody_shown cols hm (List.cons_ne_nil m ns) fun k hk => h k (by simp [hk])
    have hall := hn.append (hgap.append hrest)
    simpa [quoteBody] using hall
end

theorem items_shown {cols : Nat} {margin : Text} (ordered : Bool) {ns : List Node}
    (h : ∀ n ∈ ns, ∀ index,
      Shown (silent n) (unlines (itemLines cols margin (marker ordered index) n))) (index : Nat) :
    Shown (silentAll ns) (unlines (itemsLines cols margin ordered index ns)) := by
  induction ns generalizing index with
  | nil => rfl
  | cons n ns ih =>
    rw [itemsLines, unlines_append]
    exact (h n (by simp) index).append (ih (fun m hm => h m (by simp [hm])) (index + 1))

theorem itemRun_shown (cols : Nat) {margin : Text} (hm : '\n' ∉ margin) (ordered : Bool)
    (index : Nat) {cs : List Node} (h : ∀ c ∈ cs, Compilable c) :
    Shown (silentAll cs) (unlines (fillLines cols ⟨margin ++ marker ordered index,
      margin ++ indentation (marker ordered index)⟩ (runTokens cs))) := by
  have hmarker := (Markdown.oneLine_marker ordered index).1
  have hedge : Edged (margin ++ marker ordered index) := edged_of_not_mem (by simp [hm, hmarker])
  exact shown_fill cols hedge.first h

theorem itemLines_shown (cols : Nat) {n : Node} (h : Listable n) {margin : Text}
    (hm : '\n' ∉ margin) (ordered : Bool) (index : Nat) :
    Shown (silent n) (unlines (itemLines cols margin (marker ordered index) n)) := by
  induction h generalizing margin ordered index with
  | plain l p hcs =>
    simpa [silent, silentAll, itemLines, nestedLines] using itemRun_shown cols hm ordered index hcs
  | nested l p inner m hcs _ ih =>
    have hindent : '\n' ∉ margin ++ indentation (marker ordered index) := by
      simp [hm, indentation, List.mem_replicate]
    have hitems := items_shown inner (fun i hi j => ih i hi hindent inner j) 0
    have hall := (itemRun_shown cols hm ordered index hcs).append hitems
    simpa [silent, silentAll, itemLines, nestedLines] using hall

theorem headingLine_endsOnce {level : Nat} (h : 1 ≤ level) (text : Text) :
    EndsOnce (unlines [headingLine level text]) := by
  refine endsOnce_line ?_ (edged_of_not_mem (newline_not_mem_headingLine level text))
  obtain ⟨level, rfl⟩ := Nat.exists_eq_add_of_le' h
  simp [headingLine, List.replicate_succ]

theorem codeBlock_endsOnce (fenced : Bool) (length : Nat) (info code : Text) :
    ∃ t, codeBlock fenced length info code = t ++ ['\n'] ∧ EndsOnce t := by
  obtain ⟨width, hwidth⟩ : ∃ width, fenceWidth fenced length = width + 1 :=
    Nat.exists_eq_add_of_le' (fenceWidth_pos fenced length)
  have hfence : List.replicate (fenceWidth fenced length) '\x60' =
      List.replicate width '\x60' ++ ['\x60'] := by rw [hwidth, List.replicate_succ']
  refine ⟨List.replicate (width + 1) '\x60' ++ info ++ '\n' :: code ++
    List.replicate width '\x60' ++ ['\x60', '\n'], ?_, ?_, _, '\x60', rfl, by decide⟩
  · change List.replicate (fenceWidth fenced length) '\x60' ++ info ++ '\n' :: code ++
      List.replicate (fenceWidth fenced length) '\x60' ++ "\n\n".toList = _
    rw [← hwidth, hfence]
    simp
  · simp [List.replicate_succ]

theorem rowLine_edged (cells : Row) (widths : List Nat) : Edged (rowLine cells widths) := by
  refine ⟨?_, by rw [rowLine, List.getLast?_concat]; decide⟩
  rw [rowLine]
  cases cells.zip widths with
  | nil => decide
  | cons cell rest => simp [writeCell]

theorem table_endsOnce (alignments : List Alignment) (columns : Nat) (header : Row) {rows : List Row}
    (hne : rows ≠ []) : EndsOnce (unlines (tableLines alignments columns header rows)) := by
  rcases List.eq_nil_or_concat rows with rfl | ⟨front, last, rfl⟩
  · exact absurd rfl hne
  · generalize hwidths : columnWidths alignments columns (header :: front.concat last) = widths
    have hline : ∀ cells, rowLine cells widths ≠ [] := fun cells => by simp [rowLine]
    have hlines : rowLine header widths :: delimiterLine alignments widths ::
        (front.concat last).map (rowLine · widths) =
          (rowLine header widths :: delimiterLine alignments widths ::
            front.map (rowLine · widths)) ++ [rowLine last widths] := by simp
    rw [tableLines, hwidths]
    exact endsOnce_unlines ⟨hline header, (rowLine_edged header widths).first⟩
      ⟨hline last, (rowLine_edged last widths).last⟩ hlines

theorem block_shown (cols : Nat) {n : Node} (h : Renderable n)
    (hlevel : Markdown.leveled n.kind = true) :
    ∃ t, block cols n = .ok (t ++ ['\n']) ∧ Shown (silent n) t := by
  cases h with
  | heading level l hcs =>
    have hleast : 1 ≤ level := by
      simp [Markdown.leveled, Node.kind] at hlevel
      exact hlevel.1
    exact ⟨_, heading_eq level hcs, headingLine_endsOnce hleast _⟩
  | paragraph l hcs => exact ⟨_, paragraph_block_eq cols l hcs, shown_fill cols (by simp) hcs⟩
  | codeBlock fenced length info code cs =>
    obtain ⟨t, htext, ht⟩ := codeBlock_endsOnce fenced length info code
    exact ⟨t, by rw [block, htext], ht⟩
  | quote l hcs =>
    exact ⟨_, quote_block_eq cols l hcs, quotedLines_shown cols (by simp) (.quote l hcs)⟩
  | list ordered l hitems =>
    refine ⟨_, list_block_eq cols ordered l hitems, ?_⟩
    exact items_shown ordered (fun i hi => itemLines_shown cols (hitems i hi) (by simp) ordered) 0
  | table alignments l hcs =>
    refine ⟨_, table_eq alignments l hcs cols, ?_⟩
    cases hcs with
    | mk a b columns _ _ hne _ => exact table_endsOnce alignments _ _ (by simpa using hne)

theorem blocks_shown (cols : Nat) {cs : List Node}
    (h : ∀ c ∈ cs, Renderable c ∧ Markdown.leveled c.kind = true) :
    ∃ ts, blocks cols cs = .ok (unlines ts) ∧ (∀ t ∈ ts, t = [] ∨ EndsOnce t) ∧
      ts.map List.isEmpty = cs.map silent := by
  induction cs with
  | nil => exact ⟨[], rfl, by simp, rfl⟩
  | cons c cs ih =>
    obtain ⟨t, hblock, ht⟩ := block_shown cols (h c (by simp)).1 (h c (by simp)).2
    obtain ⟨ts, hblocks, hends, hflags⟩ := ih fun d hd => h d (by simp [hd])
    have hflag : t.isEmpty = silent c := by
      rw [Bool.eq_iff_iff, List.isEmpty_iff]
      exact shown_eq_nil ht
    refine ⟨t :: ts, ?_, List.forall_mem_cons.mpr ⟨ht.nil_or_endsOnce, hends⟩, ?_⟩
    · rw [blocks, hblock, hblocks]
      simp [bind, Except.bind, pure, Except.pure]
    · rw [List.map_cons, List.map_cons, hflag, hflags]

theorem finish_two (t : Text) (c : Char) : finish (t ++ [c, '\n', '\n']) = t ++ [c, '\n'] := by
  have hsplit : t ++ [c, '\n', '\n'] = (t ++ [c, '\n']) ++ ['\n'] := by simp
  have hsuffix : "\n\n".toList.isSuffixOf (t ++ [c, '\n', '\n']) = true := by
    rw [List.isSuffixOf_iff_suffix]
    exact ⟨t ++ [c], by simp⟩
  rw [finish, if_pos hsuffix, hsplit, List.dropLast_concat]
  split
  · next d hd => cases t <;> simp at hd
  · rfl

section

variable {ts : List Text} (h : ∀ t ∈ ts, t = [] ∨ EndsOnce t)

include h

/-- Behind a block that is shown, one line feed is taken away. The whole ends once if the first
block is shown too. -/
theorem finish_shown {z : Text} (hz : EndsOnce z) :
    finish (unlines (ts ++ [z])) = unlines ts ++ z ∧
      (EndsOnce (unlines ts ++ z) ↔ (ts ++ [z]).head?.map List.isEmpty = some false) := by
  refine ⟨?_, ?_⟩
  · obtain ⟨-, body, c, rfl, -⟩ := hz
    have htext : unlines (ts ++ [body ++ [c, '\n']]) = (unlines ts ++ body) ++ [c, '\n', '\n'] := by
      simp
    rw [htext, finish_two]
    simp
  · cases ts with
    | nil => simp [hz, hz.ne_nil]
    | cons a ts =>
      have hhead : (unlines (a :: ts) ++ z).head? = (a ++ ['\n']).head? := by
        cases a <;> simp
      obtain ⟨-, body, c, rfl, hc⟩ := hz
      rcases h a (by simp) with rfl | ha
      · simp [EndsOnce]
      · refine ⟨fun _ => by simp [ha.ne_nil], fun _ => ⟨?_, unlines (a :: ts) ++ body, c, by simp, hc⟩⟩
        rw [hhead, List.head?_append_of_ne_nil _ ha.ne_nil]
        exact ha.1

theorem unlines_two : (ts.length ≤ 1 ∧ ∀ t ∈ ts, t = []) ∨ ∃ t, unlines ts = t ++ ['\n', '\n'] := by
  rcases List.eq_nil_or_concat ts with rfl | ⟨front, y, rfl⟩
  · exact .inl ⟨by simp, by simp⟩
  rw [List.concat_eq_append] at h ⊢
  rcases h y (by simp) with rfl | ⟨-, body, c, rfl, -⟩
  · rcases List.eq_nil_or_concat front with rfl | ⟨front, x, rfl⟩
    · exact .inl ⟨by simp, by simp⟩
    · exact .inr ⟨unlines front ++ x, by simp⟩
  · exact .inr ⟨unlines front ++ body ++ [c], by simp⟩

theorem finish_silent : finish (unlines (ts ++ [[]])) = [] ∨ EndsOnce (finish (unlines (ts ++ [[]]))) ↔
    ts.length ≤ 1 ∧ ∀ t ∈ ts, t = [] := by
  rcases unlines_two h with hfew | ⟨t, ht⟩
  · refine ⟨fun _ => hfew, fun _ => .inl ?_⟩
    match ts, hfew with
    | [], _ => rfl
    | [a], ⟨_, hnil⟩ =>
      rw [hnil a (by simp)]
      rfl
  · have htext : unlines (ts ++ [[]]) = t ++ ['\n', '\n', '\n'] := by simp [ht]
    have hmany : ¬ (ts.length ≤ 1 ∧ ∀ t ∈ ts, t = []) := by
      rintro ⟨hlen, hnil⟩
      match ts, hlen with
      | [], _ => simp at ht
      | [a], _ =>
        rw [hnil a (by simp)] at ht
        have hlength := congrArg List.length ht
        simp at hlength
    rw [htext, finish_two]
    simp only [not_endsOnce, hmany, or_false, iff_false]
    simp

/-- Blocks of which each is nothing or ends once, with an empty line behind each: when the whole is
nothing or ends once, after one line feed is taken away. -/
theorem finish_unlines_iff :
    finish (unlines ts) = [] ∨ EndsOnce (finish (unlines ts)) ↔
      (ts.length ≤ 2 ∧ ∀ t ∈ ts, t = []) ∨
        ts.head?.map List.isEmpty = some false ∧ ts.getLast?.map List.isEmpty = some false := by
  rcases List.eq_nil_or_concat ts with rfl | ⟨front, z, rfl⟩
  · exact ⟨fun _ => .inl (by simp), fun _ => .inl rfl⟩
  rw [List.concat_eq_append] at h ⊢
  have hfront : ∀ t ∈ front, t = [] ∨ EndsOnce t := fun t ht => h t (by simp [ht])
  rcases h z (by simp) with rfl | hz
  · have hlast : (front ++ [[]]).getLast?.map List.isEmpty ≠ some false := by simp
    rw [finish_silent hfront]
    simp only [hlast, and_false, or_false, List.length_append, List.length_singleton,
      List.forall_mem_append, List.forall_mem_singleton, and_true, Nat.reduceLeDiff]
  · obtain ⟨hfinish, hends⟩ := finish_shown hfront hz
    have hlast : (front ++ [z]).getLast?.map List.isEmpty = some false := by simp [hz.ne_nil]
    have hnone : ¬ ∀ t ∈ front ++ [z], t = [] := fun hnil => hz.ne_nil (hnil z (by simp))
    have htext : unlines front ++ z ≠ [] := List.append_ne_nil_of_right_ne_nil _ hz.ne_nil
    simp only [hfinish, hends, hlast, hnone, htext, and_false, false_or, and_true]

end

/-- What a source is formatted to is nothing, or begins with no line feed and ends with one only,
exactly if its first and its last block are not silent, or there are at most two blocks and all are
silent. -/
theorem format_ends_once_iff {options : Options} {source o : Text}
    (h : format options source = .ok o) :
    o = [] ∨ EndsOnce o ↔
      ((Markdown.parse source).children.length ≤ 2 ∧
          ∀ c ∈ (Markdown.parse source).children, silent c = true) ∨
        (Markdown.parse source).children.head?.map silent = some false ∧
          (Markdown.parse source).children.getLast?.map silent = some false := by
  have hroot := Markdown.parse_kind source
  have hlevels := Markdown.parse_leveled source
  rw [format] at h
  generalize Markdown.parse source = root at h hroot hlevels
  obtain ⟨k, l, cs⟩ := root
  obtain rfl : k = .document := hroot
  have hrenderable : ∀ c ∈ cs, Renderable c := by
    cases acceptable_of_ok h with
    | document _ hcs => exact hcs
    | block hblock => cases hblock
  obtain ⟨ts, hblocks, hends, hflags⟩ :=
    blocks_shown options.cols fun c hc => ⟨hrenderable c hc, hlevels c hc⟩
  obtain rfl : finish (unlines ts) = o := by
    rw [document, hblocks] at h
    exact Except.ok.inj h
  have hlength : ts.length = cs.length := by simpa using congrArg List.length hflags
  have hnone : (∀ t ∈ ts, t = []) ↔ ∀ c ∈ cs, silent c = true := by
    have hall := congrArg (List.all · id) hflags
    rw [Bool.eq_iff_iff] at hall
    simpa using hall
  have hhead := congrArg List.head? hflags
  have hlast := congrArg List.getLast? hflags
  rw [List.head?_map, List.head?_map] at hhead
  rw [List.getLast?_map, List.getLast?_map] at hlast
  rw [finish_unlines_iff hends, hlength, hnone, hhead, hlast]
  rfl

/-- Between other blocks, a quote that is written as nothing leaves one more empty line. -/
theorem format_ends_once_iff_hiddenQuote :
    format ⟨80⟩ "a\n\n> &#32;\n\n- b\n".toList = .ok "a\n\n\n- b\n".toList ∧
      EndsOnce "a\n\n\n- b\n".toList := by
  have hformat : format ⟨80⟩ "a\n\n> &#32;\n\n- b\n".toList = .ok "a\n\n\n- b\n".toList := by
    decide +kernel
  have hends := (format_ends_once_iff hformat).mpr (.inr (by decide +kernel))
  exact ⟨hformat, hends.resolve_left (by decide)⟩

/-- A paragraph of a space leaves its empty line at the end or at the beginning. -/
theorem format_leaves_line :
    format ⟨80⟩ "# a\n\n&#32;\n".toList = .ok "# a\n\n".toList ∧
      format ⟨80⟩ "&#32;\n\n# a\n".toList = .ok "\n# a\n".toList := by
  constructor
  · decide +kernel
  · decide +kernel

end CanonMark.Layout
