import CanonMark.Proofs.Layout.Fill
import CanonMark.Proofs.Layout.Reflow
import Mathlib.Data.List.DropRight

/-! # Markup on one line and in tokens

A run is written stroke by stroke. A stroke may be broken at its spaces or is never broken: code
spans, destinations, autolinks and the words of link text are of the second kind. The markup on one
line and the tokens of a paragraph come from the same strokes, so they differ only in the spaces at
which a line may be broken.
-/
namespace CanonMark.Layout

inductive Stroke where
  | breakable (t : Text)
  | solid (t : Text)
  deriving DecidableEq, Repr

def Stroke.text : Stroke → Text
  | .breakable t => t
  | .solid t => t

def Stroke.marks : Stroke → List Mark
  | .breakable t => Layout.breakable t
  | .solid t => Layout.solid t

def inked (ss : List Stroke) : List Mark := ss.flatMap Stroke.marks

def delimitedStrokes (delimiter : Text) (children : List Node) : Except LayoutError (List Stroke) :=
  if children.isEmpty || !children.all Node.isText then .error .malformedEmphasis
  else .ok [.breakable (delimiter ++ escape (flatten (children.flatMap Node.literal)) ++ delimiter)]

def tailStrokes (destination title : Text) : List Stroke :=
  [.breakable "](".toList, .solid (linkDestination destination), .breakable (linkTitle title),
    .breakable [')']]

def wordStrokes : List Text → List Stroke
  | [] => []
  | [word] => [.solid word]
  | word :: words => .solid word :: .breakable [' '] :: wordStrokes words

def linkStrokes (destination title : Text) (words : List Text) : List Stroke :=
  if title.isEmpty && Text.join [' '] words == destination && isAutolink destination then
    [.solid ('<' :: destination ++ ['>'])]
  else .breakable ['['] :: wordStrokes words ++ tailStrokes destination title

mutual
def nodeStrokes (beforeLink : Bool) : Node → Except LayoutError (List Stroke)
  | .mk .text l _ => .ok [.breakable (shieldBang beforeLink (escape (unbroken l)))]
  | .mk .emphasis _ cs => delimitedStrokes ['*'] cs
  | .mk .strong _ cs => delimitedStrokes ['*', '*'] cs
  | .mk .code l _ => .ok [.solid (codeSpan l)]
  | .mk (.link destination title) _ cs =>
    if cs.any (·.kind.isLink) then .error .nestedLink
    else
      match strokes cs with
      | .ok ss => .ok (linkStrokes destination title (tokens (inked ss)))
      | .error e => .error e
  | .mk (.image destination title) _ cs =>
    .ok (.breakable "![".toList :: .breakable (escape (trimFlatten (Node.shownAll cs))) ::
      tailStrokes destination title)
  | .mk k _ _ => .error (.unsupported k)

/-- What is written of a run, and how. -/
def strokes : List Node → Except LayoutError (List Stroke)
  | [] => .ok []
  | n :: ns =>
    match nodeStrokes (ns.head?.any (·.kind.isLink)) n with
    | .ok ss =>
      match strokes ns with
      | .ok rest => .ok (ss ++ rest)
      | .error e => .error e
    | .error e => .error e
end

theorem inked_append (ss rs : List Stroke) : inked (ss ++ rs) = inked ss ++ inked rs :=
  List.flatMap_append

theorem inked_tailStrokes (destination title : Text) :
    inked (tailStrokes destination title) = linkTail destination title := by
  simp [inked, tailStrokes, linkTail, Stroke.marks]

theorem inked_wordStrokes (words : List Text) : inked (wordStrokes words) = spaced words := by
  induction words with
  | nil => rfl
  | cons word words ih =>
    cases words with
    | nil => simp [inked, wordStrokes, spaced, Stroke.marks]
    | cons next words =>
      rw [spaced, ← ih]
      · rfl
      · simp

theorem inked_linkStrokes (destination title : Text) (words : List Text) :
    inked (linkStrokes destination title words) = linkMarks destination title words := by
  rw [linkStrokes, linkMarks]
  split
  · exact List.append_nil _
  · rw [inked_append, inked_tailStrokes, ← inked_wordStrokes]
    rfl

theorem inked_delimitedStrokes (delimiter : Text) (cs : List Node) :
    delimited delimiter cs = inked <$> delimitedStrokes delimiter cs := by
  rw [delimited, delimitedStrokes]
  split
  · rfl
  · exact congrArg Except.ok (List.append_nil _).symm

mutual
theorem compileNode_eq_inked (beforeLink : Bool) :
    ∀ n, compileNode beforeLink n = inked <$> nodeStrokes beforeLink n
  | .mk k l cs => by
    cases k with
    | text => exact congrArg Except.ok (List.append_nil _).symm
    | code => exact congrArg Except.ok (List.append_nil _).symm
    | emphasis => exact inked_delimitedStrokes ['*'] cs
    | strong => exact inked_delimitedStrokes ['*', '*'] cs
    | link destination title =>
      rw [compileNode, nodeStrokes, compile_eq_inked cs]
      split
      · rfl
      · cases strokes cs with
        | error e => rfl
        | ok ss => exact congrArg Except.ok (inked_linkStrokes destination title _).symm
    | image destination title =>
      rw [compileNode, nodeStrokes, imageMarks, ← inked_tailStrokes]
      exact congrArg Except.ok (List.append_assoc _ _ _)
    | _ => rfl

theorem compile_eq_inked : ∀ ns, compile ns = inked <$> strokes ns
  | [] => rfl
  | n :: ns => by
    rw [compile, strokes, compileNode_eq_inked _ n, compile_eq_inked ns]
    cases nodeStrokes (ns.head?.any (·.kind.isLink)) n with
    | error e => rfl
    | ok ss =>
      cases strokes ns with
      | error e => rfl
      | ok rest => exact congrArg Except.ok (inked_append ss rest).symm
end

theorem compile_cons_ok {n : Node} {ns : List Node} {ms : List Mark} (h : compile (n :: ns) = .ok ms) :
    ∃ first rest, compileNode (ns.head?.any (·.kind.isLink)) n = .ok first ∧ compile ns = .ok rest ∧
      ms = first ++ rest := by
  rw [compile] at h
  split at h
  · next first hfirst =>
    split at h
    · next rest hrest => exact ⟨first, rest, hfirst, hrest, (Except.ok.inj h).symm⟩
    · cases h
  · cases h

theorem compileNode_link_ok {beforeLink : Bool} {d t l : Text} {cs : List Node} {ms : List Mark}
    (h : compileNode beforeLink (.mk (.link d t) l cs) = .ok ms) :
    cs.any (·.kind.isLink) = false ∧
      ∃ inner, compile cs = .ok inner ∧ ms = linkMarks d t (tokens inner) := by
  rw [compileNode] at h
  split at h
  · cases h
  · next hlink =>
    split at h
    · next inner hinner => exact ⟨by simpa using hlink, inner, hinner, (Except.ok.inj h).symm⟩
    · cases h

@[simp] theorem map_char_breakable (t : Text) : (breakable t).map Mark.char = t := by
  have hchar : ∀ c, Mark.char (if c = ' ' then .gap else .glyph c) = c := by
    intro c
    split
    · next h => exact h.symm
    · rfl
  simp only [breakable, List.map_map, Function.comp_def, hchar, List.map_id']

@[simp] theorem map_char_solid (t : Text) : (solid t).map Mark.char = t := by
  simp [solid, Function.comp_def, Mark.char]

theorem map_char_inked (ss : List Stroke) :
    (inked ss).map Mark.char = ss.flatMap Stroke.text := by
  have hmarks : ∀ s : Stroke, s.marks.map Mark.char = s.text := by
    intro s
    cases s with
    | breakable t => exact map_char_breakable t
    | solid t => exact map_char_solid t
  simp [inked, List.map_flatMap, hmarks]

def collapseGaps : List Mark → List Mark
  | [] => []
  | m :: ms => if m = .gap ∧ ms.head? = some .gap then collapseGaps ms else m :: collapseGaps ms

def squeezed (ms : List Mark) : List Mark :=
  collapseGaps ((ms.dropWhile (· == .gap)).rdropWhile (· == .gap))

theorem map_char_spaced (ws : List Text) : (spaced ws).map Mark.char = Text.join [' '] ws := by
  induction ws with
  | nil => rfl
  | cons w ws ih =>
    cases ws with
    | nil => simp [spaced, Text.join]
    | cons v ws => simp [spaced, Text.join, ih, Mark.char]

theorem rdropWhile_gap_cons (m : Mark) (ms : List Mark) :
    (m :: ms).rdropWhile (· == .gap) =
      if m = .gap ∧ ms.rdropWhile (· == .gap) = [] then [] else m :: ms.rdropWhile (· == .gap) := by
  simp only [List.rdropWhile, List.reverse_cons, List.dropWhile_append, List.reverse_eq_nil_iff,
    List.isEmpty_iff]
  cases m with
  | gap => split <;> simp [*]
  | glyph c => split <;> simp [*]

theorem tokens_glyph {ms : List Mark} {s : Text} {ss : List Text} (h : segments ms = s :: ss)
    (c : Char) : tokens (.glyph c :: ms) = (c :: s) :: ss.filter fun t => !t.isEmpty := by
  simp [tokens, segments, h]

/-- Words behind a gap, which goes if no word follows. -/
def behindGap (ws : List Text) : List Mark := if ws = [] then [] else .gap :: spaced ws

theorem spaced_cons (w : Text) (ws : List Text) : spaced (w :: ws) = solid w ++ behindGap ws := by
  cases ws with
  | nil => exact (List.append_nil _).symm
  | cons v ws => rfl

/-- The tokens behind a glyph and those behind a gap, which need each other: a glyph may be followed
by a gap, and a gap by the next glyph. -/
theorem spaced_tokens_behind (ms : List Mark) :
    (∀ c, spaced (tokens (.glyph c :: ms)) =
      .glyph c :: collapseGaps (ms.rdropWhile (· == .gap))) ∧
    collapseGaps ((.gap :: ms).rdropWhile (· == .gap)) = behindGap (tokens ms) := by
  induction ms with
  | nil => exact ⟨fun c => rfl, rfl⟩
  | cons m ms ih =>
    obtain ⟨hglyph, hgap⟩ := ih
    obtain ⟨s, ss, hs⟩ := List.exists_cons_of_ne_nil (segments_ne_nil ms)
    cases m with
    | gap =>
      refine ⟨fun c => ?_, ?_⟩
      · have hbehind : segments (.gap :: ms) = [] :: segments ms := rfl
        rw [tokens_glyph hbehind, spaced_cons, hgap]
        rfl
      · rw [tokens_cons_gap, ← hgap, rdropWhile_gap_cons .gap (.gap :: ms)]
        cases hrest : (Mark.gap :: ms).rdropWhile (· == .gap) with
        | nil => rfl
        | cons n ns =>
          -- what is left of marks that begin with a gap begins with it
          obtain rfl : n = .gap := by
            rw [rdropWhile_gap_cons] at hrest
            split at hrest
            · cases hrest
            · exact (List.cons.inj hrest).1.symm
          rw [if_neg (by simp), collapseGaps, if_pos ⟨rfl, rfl⟩]
    | glyph d =>
      have hd := tokens_glyph hs d
      have hsegments : segments (.glyph d :: ms) = (d :: s) :: ss := by simp [segments, hs]
      have hkeep : (Mark.glyph d :: ms).rdropWhile (· == .gap) =
          .glyph d :: ms.rdropWhile (· == .gap) := by simp [rdropWhile_gap_cons]
      have hcollapse : collapseGaps (.glyph d :: ms.rdropWhile (· == .gap)) =
          spaced (tokens (.glyph d :: ms)) := by rw [hglyph]; simp [collapseGaps]
      refine ⟨fun c => ?_, ?_⟩
      · rw [tokens_glyph hsegments, hkeep, hcollapse, hd, spaced_cons, spaced_cons]
        rfl
      · rw [rdropWhile_gap_cons, hkeep, if_neg (by simp), collapseGaps, if_neg (by simp), hcollapse,
          behindGap, if_neg (by simp [hd])]

theorem spaced_tokens (ms : List Mark) : spaced (tokens ms) = squeezed ms := by
  induction ms with
  | nil => rfl
  | cons m ms ih =>
    cases m with
    | gap =>
      rw [tokens_cons_gap, ih]
      rfl
    | glyph c =>
      rw [(spaced_tokens_behind ms).1 c, squeezed, List.dropWhile_cons_of_neg (by simp),
        rdropWhile_gap_cons, if_neg (by simp), collapseGaps, if_neg (by simp)]

def glyphs (ms : List Mark) : Text :=
  ms.flatMap fun
    | .glyph c => [c]
    | .gap => []

theorem flatten_segments (ms : List Mark) : (segments ms).flatten = glyphs ms := by
  induction ms with
  | nil => rfl
  | cons m ms ih =>
    cases m with
    | gap => exact ih
    | glyph c =>
      obtain ⟨s, ss, hs⟩ := List.exists_cons_of_ne_nil (segments_ne_nil ms)
      rw [hs] at ih
      simpa [segments, hs, glyphs] using ih

theorem glyphs_append (ms ns : List Mark) : glyphs (ms ++ ns) = glyphs ms ++ glyphs ns :=
  List.flatMap_append

theorem glyphs_solid (t : Text) : glyphs (solid t) = t := by
  simp [glyphs, solid, List.flatMap_map]

theorem glyphs_breakable (t : Text) : glyphs (breakable t) = t.filter (· != ' ') := by
  induction t with
  | nil => rfl
  | cons c t ih =>
    have hcons : glyphs (breakable (c :: t)) =
        glyphs [if c = ' ' then .gap else .glyph c] ++ glyphs (breakable t) :=
      glyphs_append [if c = ' ' then .gap else .glyph c] (breakable t)
    rw [hcons, ih]
    by_cases hc : c = ' '
    · simp [hc, glyphs]
    · simp [hc, glyphs]

theorem glyph_mem_breakable {c : Char} {t : Text} (hc : c ≠ ' ') (h : c ∈ t) :
    Mark.glyph c ∈ breakable t :=
  List.mem_map.mpr ⟨c, h, if_neg hc⟩

theorem glyph_mem_solid {c : Char} {t : Text} (h : c ∈ t) : Mark.glyph c ∈ solid t :=
  List.mem_map_of_mem h

theorem mem_glyphs {c : Char} {ms : List Mark} (h : Mark.glyph c ∈ ms) : c ∈ glyphs ms :=
  List.mem_flatMap.mpr ⟨.glyph c, h, List.mem_singleton_self c⟩

theorem segments_append (ms : List Mark) : ∃ before x, before.flatten ++ x = glyphs ms ∧
    ∀ ns y after, segments ns = y :: after →
      segments (ms ++ ns) = before ++ (x ++ y) :: after := by
  induction ms with
  | nil => exact ⟨[], [], rfl, fun ns y after h => h⟩
  | cons m ms ih =>
    obtain ⟨before, x, hflat, hgo⟩ := ih
    cases m with
    | gap =>
      refine ⟨[] :: before, x, hflat, fun ns y after h => ?_⟩
      exact congrArg ([] :: ·) (hgo ns y after h)
    | glyph c =>
      cases before with
      | nil =>
        refine ⟨[], c :: x, congrArg (c :: ·) hflat, fun ns y after h => ?_⟩
        rw [List.cons_append, segments, hgo ns y after h]
        rfl
      | cons b before =>
        refine ⟨(c :: b) :: before, x, congrArg (c :: ·) hflat, fun ns y after h => ?_⟩
        rw [List.cons_append, segments, hgo ns y after h]
        rfl

theorem segments_solid_append (t : Text) {ns : List Mark} {y : Text} {after : List Text}
    (h : segments ns = y :: after) : segments (solid t ++ ns) = (t ++ y) :: after := by
  induction t with
  | nil => exact h
  | cons c t ih =>
    have hcons : solid (c :: t) ++ ns = .glyph c :: (solid t ++ ns) := rfl
    rw [hcons, segments, ih]
    rfl

/-- What is never broken stands in one token, behind the glyphs before it and before those behind
it. -/
theorem tokens_around_solid (ms ns : List Mark) {t : Text} (ht : t ≠ []) :
    ∃ before x y after, tokens (ms ++ (solid t ++ ns)) = before ++ (x ++ t ++ y) :: after ∧
      before.flatten ++ x = glyphs ms ∧ y ++ after.flatten = glyphs ns := by
  obtain ⟨before, x, hbefore, hgo⟩ := segments_append ms
  obtain ⟨y, after, hns⟩ := List.exists_cons_of_ne_nil (segments_ne_nil ns)
  have hsegments := hgo _ _ _ (segments_solid_append t hns)
  refine ⟨before.filter (!·.isEmpty), x, y, after.filter (!·.isEmpty), ?_, ?_, ?_⟩
  · rw [tokens, hsegments, List.filter_append, List.filter_cons_of_pos (by simp [ht]),
      List.append_assoc]
  · rw [List.flatten_filter_not_isEmpty, hbefore]
  · rw [List.flatten_filter_not_isEmpty, ← flatten_segments, hns, List.flatten_cons]

theorem tokens_solid {t : Text} (ht : t ≠ []) : tokens (solid t) = [t] := by
  have hsegments : segments (solid t ++ []) = (t ++ []) :: [] := segments_solid_append t rfl
  rw [List.append_nil, List.append_nil] at hsegments
  simp [tokens, hsegments, ht]

/-- The tokens that are complete, and the one that is being written. -/
structure Sink where
  done : List Text
  current : Text

namespace Sink

def flush (s : Sink) : Sink := if s.current.isEmpty then s else ⟨s.done ++ [s.current], []⟩

def append (s : Sink) (t : Text) : Sink := { s with current := s.current ++ t }

def push (s : Sink) (t : Text) : Sink :=
  match Text.splitOn ' ' t with
  | [] => s
  | first :: parts => parts.foldl (fun s part => s.flush.append part) (s.append first)

def write (s : Sink) : Stroke → Sink
  | .breakable t => s.push t
  | .solid t => s.append t

def finish (s : Sink) : List Text := s.flush.done

/-- The tokens if these marks are still to come. -/
def before (s : Sink) (ms : List Mark) : List Text := s.done ++ tokens (solid s.current ++ ms)

theorem finish_eq (s : Sink) : s.finish = s.before [] := by
  rw [finish, flush, before, List.append_nil]
  by_cases hcurrent : s.current = []
  · simp [hcurrent, solid, tokens, segments]
  · simp [hcurrent, tokens_solid]

theorem before_append (s : Sink) (t : Text) (ms : List Mark) :
    (s.append t).before ms = s.before (solid t ++ ms) := by
  simp [before, append, solid]

theorem before_flush (s : Sink) (ms : List Mark) : s.flush.before ms = s.before (.gap :: ms) := by
  rw [flush]
  by_cases hcurrent : s.current = []
  · simp [before, hcurrent, solid, tokens_cons_gap]
  · rw [if_neg (by simpa using hcurrent), before, before, tokens_append_gap, tokens_solid hcurrent,
      List.append_assoc]
    rfl

theorem before_foldl_parts (parts : List Text) (s : Sink) (ms : List Mark) :
    (parts.foldl (fun s part => s.flush.append part) s).before ms =
      s.before (parts.flatMap (fun part => .gap :: solid part) ++ ms) := by
  induction parts generalizing s with
  | nil => rfl
  | cons part parts ih =>
    rw [List.foldl_cons, ih, before_append, before_flush, List.flatMap_cons]
    simp

theorem breakable_eq_of_splitOn {t first : Text} {parts : List Text}
    (h : Text.splitOn ' ' t = first :: parts) :
    breakable t = solid first ++ parts.flatMap fun part => .gap :: solid part := by
  induction t generalizing first parts with
  | nil =>
    obtain ⟨rfl, rfl⟩ := List.cons.inj h
    rfl
  | cons c t ih =>
    obtain ⟨piece, pieces, hpieces⟩ := List.exists_cons_of_ne_nil (splitOn_ne_nil ' ' t)
    have hrest := ih hpieces
    rw [Text.splitOn, hpieces] at h
    by_cases hc : c = ' '
    · rw [if_pos hc] at h
      obtain ⟨rfl, rfl⟩ := List.cons.inj h
      have hcons : breakable (c :: t) = .gap :: breakable t := congrArg (· :: _) (if_pos hc)
      rw [hcons, hrest]
      rfl
    · rw [if_neg hc] at h
      obtain ⟨rfl, rfl⟩ := List.cons.inj h
      have hcons : breakable (c :: t) = .glyph c :: breakable t := congrArg (· :: _) (if_neg hc)
      rw [hcons, hrest]
      rfl

theorem before_write (s : Sink) (stroke : Stroke) (ms : List Mark) :
    (s.write stroke).before ms = s.before (stroke.marks ++ ms) := by
  cases stroke with
  | solid t => exact before_append s t ms
  | breakable t =>
    obtain ⟨first, parts, hparts⟩ := List.exists_cons_of_ne_nil (splitOn_ne_nil ' ' t)
    simp only [write, push, hparts, Stroke.marks, breakable_eq_of_splitOn hparts]
    rw [before_foldl_parts, before_append, List.append_assoc]

theorem before_foldl_write (ss : List Stroke) (s : Sink) (ms : List Mark) :
    (ss.foldl write s).before ms = s.before (inked ss ++ ms) := by
  induction ss generalizing s with
  | nil => rfl
  | cons stroke ss ih =>
    rw [List.foldl_cons, ih, before_write, ← List.append_assoc]
    rfl

end Sink

theorem inlineTokens_eq_finish (ns : List Node) :
    inlineTokens ns = (fun ss => (ss.foldl Sink.write ⟨[], []⟩).finish) <$> strokes ns := by
  rw [inlineTokens, compile_eq_inked]
  cases strokes ns with
  | error e => rfl
  | ok ss =>
    have hfinish : (ss.foldl Sink.write ⟨[], []⟩).finish = tokens (inked ss) := by
      rw [Sink.finish_eq, Sink.before_foldl_write, List.append_nil]
      rfl
    exact congrArg Except.ok hfinish.symm

theorem linkDestination_ne_nil (destination : Text) : linkDestination destination ≠ [] := by
  simp only [linkDestination]
  split
  · simp
  · next h =>
    intro hnil
    rw [hnil] at h
    exact h rfl

theorem codeSpan_ne_nil (literal : Text) : codeSpan literal ≠ [] := by
  simp only [codeSpan]
  split <;> simp

/-- Strokes that write something wherever they may not be broken. -/
def Firm (ss : List Stroke) : Prop := ∀ t, .solid t ∈ ss → t ≠ []

theorem firm_append {ss rs : List Stroke} (hs : Firm ss) (hr : Firm rs) : Firm (ss ++ rs) := by
  intro t ht
  rcases List.mem_append.mp ht with ht | ht
  · exact hs t ht
  · exact hr t ht

theorem firm_breakable {ss : List Stroke} (h : Firm ss) (t : Text) : Firm (.breakable t :: ss) := by
  intro u hu
  exact h u (by simpa using hu)

theorem firm_nil : Firm [] := by simp [Firm]

theorem firm_solid {t : Text} (h : t ≠ []) : Firm [.solid t] := by
  simpa [Firm] using h

theorem firm_tailStrokes (destination title : Text) : Firm (tailStrokes destination title) := by
  intro t ht
  obtain rfl : t = linkDestination destination := by simpa [tailStrokes] using ht
  exact linkDestination_ne_nil destination

theorem firm_wordStrokes {words : List Text} (h : ∀ w ∈ words, w ≠ []) :
    Firm (wordStrokes words) := by
  induction words with
  | nil => exact firm_nil
  | cons word words ih =>
    have hword := firm_solid (h word (by simp))
    cases words with
    | nil => exact hword
    | cons next words =>
      exact firm_append hword (firm_breakable (ih fun w hw => h w (by simp [hw])) [' '])

theorem firm_linkStrokes (destination title : Text) {words : List Text} (h : ∀ w ∈ words, w ≠ []) :
    Firm (linkStrokes destination title words) := by
  rw [linkStrokes]
  split
  · exact firm_solid (by simp)
  · exact firm_breakable (firm_append (firm_wordStrokes h) (firm_tailStrokes destination title)) ['[']

theorem firm_delimitedStrokes {delimiter : Text} {cs : List Node} {ss : List Stroke}
    (h : delimitedStrokes delimiter cs = .ok ss) : Firm ss := by
  rw [delimitedStrokes] at h
  split at h
  · cases h
  · obtain rfl := Except.ok.inj h
    exact firm_breakable firm_nil _

theorem tokens_ne_nil {ms : List Mark} : ∀ t ∈ tokens ms, t ≠ [] := by
  intro t ht
  simpa using (List.mem_filter.mp ht).2

theorem nodeStrokes_firm {beforeLink : Bool} {n : Node} {ss : List Stroke}
    (h : nodeStrokes beforeLink n = .ok ss) : Firm ss := by
  obtain ⟨k, l, cs⟩ := n
  cases k with
  | text =>
    obtain rfl := Except.ok.inj h
    exact firm_breakable firm_nil _
  | emphasis => exact firm_delimitedStrokes h
  | strong => exact firm_delimitedStrokes h
  | code =>
    obtain rfl := Except.ok.inj h
    exact firm_solid (codeSpan_ne_nil l)
  | link destination title =>
    rw [nodeStrokes] at h
    split at h
    · cases h
    · cases hcs : strokes cs with
      | error e =>
        rw [hcs] at h
        cases h
      | ok rs =>
        rw [hcs] at h
        obtain rfl := Except.ok.inj h
        exact firm_linkStrokes destination title tokens_ne_nil
  | image destination title =>
    obtain rfl := Except.ok.inj h
    exact firm_breakable (firm_breakable (firm_tailStrokes destination title) _) _
  | _ => cases h

theorem strokes_firm {ns : List Node} {ss : List Stroke} (h : strokes ns = .ok ss) : Firm ss := by
  induction ns generalizing ss with
  | nil =>
    obtain rfl := Except.ok.inj h
    exact firm_nil
  | cons n ns ih =>
    rw [strokes] at h
    cases hn : nodeStrokes (ns.head?.any (·.kind.isLink)) n with
    | error e =>
      rw [hn] at h
      cases h
    | ok rs =>
      cases hns : strokes ns with
      | error e =>
        rw [hn, hns] at h
        cases h
      | ok rest =>
        rw [hn, hns] at h
        obtain rfl := Except.ok.inj h
        exact firm_append (nodeStrokes_firm hn) (ih hns)

/-- The markup of a run on one line and its tokens fail alike, or come from the same strokes. Then
no token is empty, the tokens with single spaces between them are the markup with its breakable
spaces evened out, and what may not be broken stands in one token at its place. -/
theorem inline_forms_agree (ns : List Node) :
    (∃ e, strokes ns = .error e ∧ inlineText ns = .error e ∧ inlineTokens ns = .error e) ∨
    ∃ ss ts, strokes ns = .ok ss ∧ inlineText ns = .ok (ss.flatMap Stroke.text) ∧
      inlineTokens ns = .ok ts ∧ (∀ t ∈ ts, t ≠ []) ∧
      Text.join [' '] ts = (squeezed (inked ss)).map Mark.char ∧
      ∀ before t after, ss = before ++ .solid t :: after →
        ∃ earlier x y later, ts = earlier ++ (x ++ t ++ y) :: later ∧
          earlier.flatten ++ x = glyphs (inked before) ∧
          y ++ later.flatten = glyphs (inked after) := by
  rw [inlineText, inlineTokens, compile_eq_inked]
  cases hss : strokes ns with
  | error e => exact .inl ⟨e, rfl, rfl, rfl⟩
  | ok ss =>
    refine .inr ⟨ss, tokens (inked ss), rfl, ?_, rfl, tokens_ne_nil, ?_, ?_⟩
    · exact congrArg Except.ok (map_char_inked ss)
    · rw [← map_char_spaced, spaced_tokens]
    · rintro before t after rfl
      have hinked : inked (before ++ .solid t :: after) =
          inked before ++ (solid t ++ inked after) := inked_append _ _
      rw [hinked]
      exact tokens_around_solid _ _ (strokes_firm hss t (by simp))

example :
    inlineTokens [.mk (.link "u".toList []) [] [.ofText "a ".toList, .leaf .code "c  d".toList]] =
      .ok ["[a".toList, "\x60c  d\x60](u)".toList] := by decide

end CanonMark.Layout
