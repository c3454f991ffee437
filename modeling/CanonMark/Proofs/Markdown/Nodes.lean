import CanonMark.Markdown.Reader

/-! # Nodes of what is read

Events that are balanced change nothing but the innermost open node. So the nodes of spans, and
those of the parts of a document, can be told without a stack.
-/
namespace CanonMark.Markdown

open OpenNodes (run)

def addedText (cs : List Node) (t : Text) : List Node :=
  match cs.getLast? with
  | some last => if last.isText then cs.dropLast ++ [last.addLiteral t] else cs ++ [.ofText t]
  | none => cs ++ [.ofText t]

mutual
def spanNodes (cs : List Node) : Span → List Node
  | .text t => addedText cs t
  | .softBreak => addedText cs ['\n']
  | .hardBreak _ => cs ++ [.branch .hardBreak []]
  | .code t => cs ++ [.leaf .code t]
  | .html t => cs ++ [.leaf .htmlSpan t]
  | .emphasis content => cs ++ [.branch .emphasis (spansNodes [] content)]
  | .strong content => cs ++ [.branch .strong (spansNodes [] content)]
  | .link destination title content =>
    cs ++ [.branch (.link destination title) (spansNodes [] content)]
  | .image destination title content =>
    cs ++ [.branch (.image destination title) (spansNodes [] content)]

def spansNodes (cs : List Node) : List Span → List Node
  | [] => cs
  | s :: ss => spansNodes (spanNodes cs s) ss
end

theorem run_append (es fs : List Event) (stack : OpenNodes) :
    run (es ++ fs) stack = run fs (run es stack) :=
  List.foldl_append

theorem addedText_of_not_text {cs : List Node} (h : ∀ n ∈ cs.getLast?, n.isText = false)
    (t : Text) : addedText cs t = cs ++ [.ofText t] := by
  unfold addedText
  split
  · next last hlast => rw [if_neg (by simp [h last hlast])]
  · rfl

theorem addedText_concat {last : Node} (h : last.isText = true) (before : List Node) (t : Text) :
    addedText (before ++ [last]) t = before ++ [last.addLiteral t] := by
  simp only [addedText, List.getLast?_concat, h, if_true, List.dropLast_concat]

theorem addedText_cases (cs : List Node) (t : Text) :
    ((∀ last ∈ cs.getLast?, last.isText = false) ∧ addedText cs t = cs ++ [.ofText t]) ∨
      ∃ before last, last.isText = true ∧ cs = before ++ [last] ∧
        addedText cs t = before ++ [last.addLiteral t] := by
  cases hend : cs.getLast? with
  | none => exact .inl ⟨nofun, addedText_of_not_text (by simp [hend]) t⟩
  | some last =>
    obtain ⟨before, rfl⟩ := List.getLast?_eq_some_iff.mp hend
    by_cases hlast : last.isText = true
    · exact .inr ⟨before, last, hlast, rfl, addedText_concat hlast before t⟩
    · have hother : ∀ n ∈ some last, n.isText = false := by
        intro n hn
        rw [← Option.some.inj hn]
        exact Bool.eq_false_iff.mpr hlast
      exact .inl ⟨hother, addedText_of_not_text (by rwa [hend]) t⟩

theorem mem_addedText {cs : List Node} {t : Text} {c : Node} (h : c ∈ addedText cs t) :
    c ∈ cs ∨ c = .ofText t ∨ ∃ last ∈ cs, last.isText = true ∧ c = last.addLiteral t := by
  obtain ⟨-, hadded⟩ | ⟨before, last, hlast, rfl, hadded⟩ := addedText_cases cs t
  · rw [hadded] at h
    rcases List.mem_append.mp h with h | h
    · exact .inl h
    · exact .inr (.inl (List.mem_singleton.mp h))
  · rw [hadded] at h
    rcases List.mem_append.mp h with h | h
    · exact .inl (List.mem_append_left _ h)
    · exact .inr (.inr ⟨last, by simp, hlast, List.mem_singleton.mp h⟩)

theorem addTextTo_eq (t : Text) (k : Kind) (l : Text) (cs : List Node) :
    OpenNodes.addTextTo t (.mk k l cs) =
      if k.isCodeBlock then .mk k (l ++ t) cs else .mk k l (addedText cs t) := by
  by_cases hk : k.isCodeBlock = true
  · rw [if_pos hk]
    exact if_pos hk
  · rw [if_neg hk]
    simp only [OpenNodes.addTextTo, addedText, Node.kind, hk, Node.children]
    cases cs.getLast? with
    | none => rfl
    | some last =>
      by_cases hlast : last.isText = true
      · simp [hlast, Node.literal]
      · simp [hlast, Node.addChild]

theorem run_text {k : Kind} (hk : k.isCodeBlock = false) (l t : Text) (cs rest : List Node) :
    OpenNodes.addText t (.mk k l cs :: rest) = .mk k l (addedText cs t) :: rest := by
  rw [OpenNodes.addText, addTextTo_eq, hk]
  rfl

theorem run_enclosed (tag : Tag) {es : List Event} {n : Node}
    (h : ∀ rest, run es (.branch tag.kind [] :: rest) = n :: rest) (top : Node)
    (rest : List Node) : run (enclosed tag es) (top :: rest) = top.addChild n.settle :: rest := by
  have hstart : run (enclosed tag es) (top :: rest) =
      run (es ++ [.finish]) (.branch tag.kind [] :: top :: rest) := rfl
  rw [hstart, run_append, h]
  rfl

mutual
theorem run_span (s : Span) {k : Kind} (hk : k.isCodeBlock = false) (l : Text)
    (cs rest : List Node) :
    run (spanEvents s) (.mk k l cs :: rest) = .mk k l (spanNodes cs s) :: rest := by
  cases s with
  | text t => exact run_text hk l t cs rest
  | softBreak => exact run_text hk l ['\n'] cs rest
  | hardBreak => rfl
  | code t => rfl
  | html t => rfl
  | emphasis content =>
    exact run_enclosed .emphasis (fun rest => run_spans content rfl [] [] rest) _ _
  | strong content =>
    exact run_enclosed .strong (fun rest => run_spans content rfl [] [] rest) _ _
  | link destination title content =>
    exact run_enclosed (.link destination title)
      (fun rest => run_spans content rfl [] [] rest) _ _
  | image destination title content =>
    exact run_enclosed (.image destination title)
      (fun rest => run_spans content rfl [] [] rest) _ _

theorem run_spans (ss : List Span) {k : Kind} (hk : k.isCodeBlock = false) (l : Text)
    (cs rest : List Node) :
    run (spansEvents ss) (.mk k l cs :: rest) = .mk k l (spansNodes cs ss) :: rest := by
  cases ss with
  | nil => rfl
  | cons s ss => rw [spansEvents, run_append, run_span s hk, run_spans ss hk, spansNodes]
end

theorem addedText_ne_nil (cs : List Node) (t : Text) : addedText cs t ≠ [] := by
  obtain ⟨-, hadded⟩ | ⟨before, last, -, -, hadded⟩ := addedText_cases cs t
  · simp [hadded]
  · simp [hadded]

theorem spanNodes_ne_nil (cs : List Node) (s : Span) : spanNodes cs s ≠ [] := by
  cases s with
  | text t => exact addedText_ne_nil cs t
  | softBreak => exact addedText_ne_nil cs ['\n']
  | _ => simp [spanNodes]

theorem spansNodes_ne_nil (ss : List Span) {cs : List Node} (h : ss ≠ [] ∨ cs ≠ []) :
    spansNodes cs ss ≠ [] := by
  induction ss generalizing cs with
  | nil =>
    rcases h with h | h
    · exact absurd rfl h
    · exact h
  | cons s ss ih => exact ih (.inr (spanNodes_ne_nil cs s))

theorem addedText_inline {cs : List Node} (h : ∀ c ∈ cs, c.kind.isInline = true) (t : Text) :
    ∀ c ∈ addedText cs t, c.kind.isInline = true := by
  intro c hc
  rcases mem_addedText hc with hc | rfl | ⟨last, hlast, -, rfl⟩
  · exact h c hc
  · rfl
  · obtain ⟨k, l, ds⟩ := last
    exact h (.mk k l ds) hlast

theorem spanNodes_inline {cs : List Node} (h : ∀ c ∈ cs, c.kind.isInline = true) (s : Span) :
    ∀ c ∈ spanNodes cs s, c.kind.isInline = true := by
  have hadd : ∀ n : Node, n.kind.isInline = true → ∀ c ∈ cs ++ [n], c.kind.isInline = true := by
    intro n hn c hc
    rw [List.mem_append, List.mem_singleton] at hc
    rcases hc with hc | rfl
    · exact h c hc
    · exact hn
  cases s with
  | text t => exact addedText_inline h t
  | softBreak => exact addedText_inline h ['\n']
  | _ => exact hadd _ rfl

theorem spansNodes_inline (ss : List Span) {cs : List Node} (h : ∀ c ∈ cs, c.kind.isInline = true) :
    ∀ c ∈ spansNodes cs ss, c.kind.isInline = true := by
  induction ss generalizing cs with
  | nil => exact h
  | cons s ss ih => exact ih (spanNodes_inline h s)

theorem lookup_nil (label : Text) : lookup? [] label = none := rfl

theorem reference_nil (own t : Content) (free : Bool) (d : Definition) (rest : Content) :
    reference [] own t free ≠ .defined d rest := by
  have hshort : ∀ closed behind, shortcut [] own closed behind ≠ .defined d rest := by
    intro closed behind
    unfold shortcut
    split
    · split
      · simp [lookup_nil]
      · simp
    · simp
  unfold reference
  simp only [lookup_nil]
  repeat' split
  all_goals simp [hshort]

theorem close_allowance (r : Reading) (a : Nat) (t : Content) :
    { r with allowance := a }.close [] t =
      ({ (r.close [] t).1 with allowance := a }, (r.close [] t).2) := by
  simp only [Reading.close, ite_self]
  cases lastBracket? [] r.pieces with
  | none => rfl
  | some found =>
    obtain ⟨content, ⟨image, live, own⟩, before⟩ := found
    cases live with
    | false => rfl
    | true =>
      cases hr : reference [] own t (!r.barred.contains t.length) with
      | direct destination title rest =>
        simp only [hr]
        cases image <;> rfl
      | defined d rest => exact absurd hr (reference_nil _ _ _ _ _)
      | failed =>
        simp only [hr]
        rfl
      | barred rest =>
        simp only [hr]
        rfl

def Reading.push (r : Reading) (p : Piece) : Reading := { r with pieces := p :: r.pieces }

/-- A piece that stands for something: a run must have a delimiter left. -/
def Piece.stands : Piece → Prop
  | .run r => r.count ≠ 0
  | _ => True

/-- But for closing brackets, what is read is one piece, whatever has been read before. -/
theorem readChar_push {c : Char} (hc : c ≠ ']') (prev : Char) (t : Content) :
    ∃ p prev' rest, p.stands ∧
      ∀ definitions r, readChar definitions r prev c t = (r.push p, prev', rest) := by
  by_cases hspacing : Text.isSpacing c = true
  · simp only [readChar, if_pos hspacing]
    split
    · exact ⟨.span _, _, _, trivial, fun _ _ => rfl⟩
    · exact ⟨.span _, _, _, trivial, fun _ _ => rfl⟩
  by_cases hslash : (c == '\\') = true
  · simp only [readChar, if_neg hspacing, if_pos hslash]
    split
    · exact ⟨.span _, _, _, trivial, fun _ _ => rfl⟩
    · split
      · split
        · exact ⟨.span _, _, _, trivial, fun _ _ => rfl⟩
        · exact ⟨.span _, _, _, trivial, fun _ _ => rfl⟩
      · exact ⟨.span _, _, _, trivial, fun _ _ => rfl⟩
    · exact ⟨.span _, _, _, trivial, fun _ _ => rfl⟩
  by_cases htick : (c == '\x60') = true
  · simp only [readChar, if_neg hspacing, if_neg hslash, if_pos htick]
    split
    · exact ⟨.span _, _, _, trivial, fun _ _ => rfl⟩
    · exact ⟨.span _, _, _, trivial, fun _ _ => rfl⟩
  by_cases hangle : (c == '<') = true
  · simp only [readChar, if_neg hspacing, if_neg hslash, if_neg htick, if_pos hangle]
    split
    · exact ⟨.span _, _, _, trivial, fun _ _ => rfl⟩
    · split
      · exact ⟨.span _, _, _, trivial, fun _ _ => rfl⟩
      · exact ⟨.span _, _, _, trivial, fun _ _ => rfl⟩
  by_cases hand : (c == '&') = true
  · simp only [readChar, if_neg hspacing, if_neg hslash, if_neg htick, if_neg hangle, if_pos hand]
    split
    · exact ⟨.span _, _, _, trivial, fun _ _ => rfl⟩
    · exact ⟨.span _, _, _, trivial, fun _ _ => rfl⟩
  simp only [readChar, if_neg hspacing, if_neg hslash, if_neg htick, if_neg hangle, if_neg hand]
  by_cases hbang : (c == '!' && t.head?.any (·.test (· == '['))) = true
  · simp only [if_pos hbang]
    exact ⟨.bracket true true _, _, _, trivial, fun _ _ => rfl⟩
  by_cases hopen : (c == '[') = true
  · simp only [if_neg hbang, if_pos hopen]
    exact ⟨.bracket false true _, _, _, trivial, fun _ _ => rfl⟩
  have hclose : ¬ (c == ']') = true := by simpa using hc
  simp only [if_neg hbang, if_neg hopen, if_neg hclose]
  by_cases hrun : (c == '*' || c == '_') = true
  · simp only [if_pos hrun]
    split
    · exact ⟨.span _, _, _, trivial, fun _ _ => rfl⟩
    · split
      · refine ⟨.run _, _, _, ?_, fun _ _ => rfl⟩
        exact Nat.ne_of_gt (Nat.add_pos_left Nat.one_pos _)
      · refine ⟨.run _, _, _, ?_, fun _ _ => rfl⟩
        exact Nat.ne_of_gt (Nat.add_pos_left Nat.one_pos _)
  · simp only [if_neg hrun]
    exact ⟨.span _, _, _, trivial, fun _ _ => rfl⟩

/-- What one step of the inline reader does. -/
theorem readOne_cases (prev : Char) (s : Symbol) (t : Content) :
    (∃ p prev' rest, p.stands ∧
      ∀ definitions r, readOne definitions r prev s t = (r.push p, prev', rest)) ∨
    (s = .char ']' ∧ ∀ definitions r, readOne definitions r prev s t =
      ((r.close definitions t).1, ']', (r.close definitions t).2)) ∨
    (∃ written, s = .underline written ∧
      ∀ definitions r, readOne definitions r prev s t = (r, '\n', t)) := by
  cases s with
  | char c =>
    by_cases hc : c = ']'
    · subst hc
      exact .inr (.inl ⟨rfl, fun _ _ => rfl⟩)
    · exact .inl (readChar_push hc prev t)
  | newline b => exact .inl ⟨.span .softBreak, _, _, trivial, fun _ _ => rfl⟩
  | pipe => exact .inl ⟨.span (.text ['|']), _, _, trivial, fun _ _ => rfl⟩
  | trail w => exact .inl ⟨.span (.text w), _, _, trivial, fun _ _ => rfl⟩
  | cut => exact .inl ⟨.span (.text []), _, _, trivial, fun _ _ => rfl⟩
  | underline written => exact .inr (.inr ⟨written, rfl, fun _ _ => rfl⟩)

theorem readInline_allowance (fuel : Nat) (r : Reading) (prev : Char) (t : Content) (a : Nat) :
    readInline [] fuel { r with allowance := a } prev t =
      { readInline [] fuel r prev t with allowance := a } := by
  induction fuel generalizing r prev t with
  | zero => cases t <;> rfl
  | succ fuel ih =>
    cases t with
    | nil => rfl
    | cons s t =>
      simp only [readInline]
      obtain ⟨p, prev', rest, -, hp⟩ | ⟨-, hclose⟩ | ⟨_, -, hskip⟩ := readOne_cases prev s t
      · rw [hp, hp]
        exact ih (r.push p) prev' rest
      · rw [hclose, hclose, close_allowance]
        exact ih _ _ _
      · rw [hskip, hskip]
        exact ih r _ t

def plainSpans (t : Content) : List Span := (spans [] 0 t).1

theorem spans_nil (allowance : Nat) (t : Content) : spans [] allowance t = (plainSpans t, allowance) := by
  have h := readInline_allowance t.length ⟨[], [], 0⟩ '\n' t allowance
  simp only [spans, plainSpans, h]

theorem lastBracket_some {content found before ps : List Piece} {b : Bool × Bool × Content}
    (h : lastBracket? content ps = some (found, b, before)) :
    ∃ between, ps = between ++ .bracket b.1 b.2.1 b.2.2 :: before ∧
      found = between.reverse ++ content := by
  induction ps generalizing content with
  | nil => cases h
  | cons p ps ih =>
    cases p with
    | bracket image live behind =>
      obtain ⟨rfl, rfl, rfl⟩ : content = found ∧ (image, live, behind) = b ∧ ps = before := by
        simpa [lastBracket?] using h
      exact ⟨[], rfl, rfl⟩
    | span s =>
      obtain ⟨between, rfl, rfl⟩ := ih h
      exact ⟨.span s :: between, rfl, by simp⟩
    | run r =>
      obtain ⟨between, rfl, rfl⟩ := ih h
      exact ⟨.run r :: between, rfl, by simp⟩

def Reading.filled (r : Reading) : Prop := r.pieces ≠ [] ∧ ∀ p ∈ r.pieces, p.stands

theorem stands_disarm {p : Piece} (h : p.stands) : (disarm p).stands := by
  cases p with
  | span s => trivial
  | run r => exact h
  | bracket image live behind => cases image <;> trivial

theorem filled_cons {s : Span} {ps : List Piece} (h : ∀ p ∈ ps, p.stands) (barred : List Nat)
    (allowance : Nat) : Reading.filled ⟨.span s :: ps, barred, allowance⟩ := by
  refine ⟨by simp, fun p hp => ?_⟩
  rcases List.mem_cons.mp hp with rfl | hp
  · trivial
  · exact h p hp

theorem filled_close (r : Reading) (hr : ∀ p ∈ r.pieces, p.stands) (definitions : List Definition)
    (t : Content) : (r.close definitions t).1.filled := by
  unfold Reading.close
  cases hb : lastBracket? [] r.pieces with
  | none => exact filled_cons hr _ _
  | some found =>
    obtain ⟨content, ⟨image, live, own⟩, before⟩ := found
    obtain ⟨between, hpieces, rfl⟩ := lastBracket_some hb
    have hbetween : ∀ p ∈ between, p.stands := fun p hp => hr p (by simp [hpieces, hp])
    have hbefore : ∀ p ∈ before, p.stands := fun p hp => hr p (by simp [hpieces, hp])
    have hdisarmed : ∀ p ∈ before.map disarm, p.stands := by
      intro p hp
      obtain ⟨q, hq, rfl⟩ := List.mem_map.mp hp
      exact stands_disarm (hbefore q hq)
    have hplain : ∀ p ∈ (between.reverse ++ []).reverse ++
        (Piece.bracket image live own).spans.map .span ++ before, p.stands := by
      intro p hp
      simp only [List.append_nil, List.reverse_reverse, List.mem_append, List.mem_map] at hp
      rcases hp with (hp | ⟨s, -, rfl⟩) | hp
      · exact hbetween p hp
      · trivial
      · exact hbefore p hp
    simp only
    split
    · exact filled_cons hplain _ _
    · split
      · cases image
        · exact filled_cons hdisarmed _ _
        · exact filled_cons hbefore _ _
      · cases image
        · exact filled_cons hdisarmed _ _
        · exact filled_cons hbefore _ _
      · exact filled_cons hplain _ _
      · exact filled_cons hplain _ _

/-- A step keeps what was read, and only an underline adds nothing. -/
theorem filled_readOne {r : Reading} (hr : ∀ p ∈ r.pieces, p.stands) (definitions : List Definition)
    (prev : Char) (s : Symbol) (t : Content)
    (h : r.pieces ≠ [] ∨ ∀ written, s ≠ .underline written) :
    (readOne definitions r prev s t).1.filled := by
  obtain ⟨p, prev', rest, hp, hpush⟩ | ⟨-, hclose⟩ | ⟨w, rfl, hskip⟩ := readOne_cases prev s t
  · rw [hpush]
    refine ⟨by simp [Reading.push], fun q hq => ?_⟩
    rcases List.mem_cons.mp hq with rfl | hq
    · exact hp
    · exact hr q hq
  · rw [hclose]
    exact filled_close r hr definitions t
  · rw [hskip]
    rcases h with hne | hno
    · exact ⟨hne, hr⟩
    · exact absurd rfl (hno w)

theorem filled_readInline {fuel : Nat} {r : Reading} (h : r.filled) (definitions : List Definition)
    (prev : Char) (t : Content) : (readInline definitions fuel r prev t).filled := by
  induction fuel generalizing r prev t with
  | zero => cases t <;> exact h
  | succ fuel ih =>
    cases t with
    | nil => exact h
    | cons s t =>
      rw [readInline]
      exact ih (filled_readOne h.2 definitions prev s t (.inl h.1)) _ _

theorem enclose_ne_nil {n : Nat} (hn : n ≠ 0) (content : List Span) : enclose n content ≠ [] := by
  fun_induction enclose n content with
  | case1 => exact absurd rfl hn
  | case2 => simp
  | case3 n content ih =>
    by_cases hzero : n = 0
    · subst hzero
      simp [enclose]
    · exact ih hzero

theorem closeRun_left (fuel : Nat) (r : Run) (before : List Piece)
    (h : r.count ≠ 0 ∨ before ≠ []) :
    (closeRun fuel r before).1.count ≠ 0 ∨ (closeRun fuel r before).2 ≠ [] := by
  induction fuel generalizing r before with
  | zero => exact h
  | succ fuel ih =>
    rw [closeRun]
    by_cases hzero : r.count = 0
    · rw [if_pos hzero]
      exact h
    · rw [if_neg hzero]
      cases ho : opener? r before with
      | none => exact h
      | some found =>
        obtain ⟨content, o, rest⟩ := found
        refine ih _ _ ?_
        by_cases hn : min r.count o.count = 0
        · left
          change r.count - min r.count o.count ≠ 0
          omega
        · right
          simp [enclose_ne_nil hn]

theorem resolveStep_ne_nil {before : List Piece} {p : Piece} (h : p.stands ∨ before ≠ []) :
    resolveStep before p ≠ [] := by
  cases p with
  | span s => simp [resolveStep]
  | bracket image live behind => simp [resolveStep]
  | run r =>
    have hleft : r.count ≠ 0 ∨ before ≠ [] := h
    simp only [resolveStep]
    have hclosed : (if r.closes then closeRun r.count r before else (r, before)).1.count ≠ 0 ∨
        (if r.closes then closeRun r.count r before else (r, before)).2 ≠ [] := by
      split
      · exact closeRun_left _ r before hleft
      · exact hleft
    generalize (if r.closes then closeRun r.count r before else (r, before)) = closed at hclosed ⊢
    obtain ⟨r', before'⟩ := closed
    split
    · next hzero =>
      rcases hclosed with hcount | hne
      · exact absurd hzero hcount
      · exact hne
    · split
      · simp
      · simp [Piece.spans]

theorem resolve_ne_nil {ps : List Piece} (hne : ps ≠ []) (h : ∀ p ∈ ps, p.stands) :
    resolve ps ≠ [] := by
  have hfold : ∀ (qs before : List Piece), before ≠ [] → qs.foldl resolveStep before ≠ [] := by
    intro qs
    induction qs with
    | nil => exact fun before hb => hb
    | cons q qs ih => exact fun before hb => ih _ (resolveStep_ne_nil (.inr hb))
  cases ps with
  | nil => exact absurd rfl hne
  | cons p ps =>
    have hfirst : resolveStep [] p ≠ [] := resolveStep_ne_nil (.inl (h p (by simp)))
    have hrest := hfold ps _ hfirst
    obtain ⟨q, qs, hq⟩ := List.exists_cons_of_ne_nil
      (show (ps.foldl resolveStep (resolveStep [] p)).reverse ≠ [] by simpa using hrest)
    have hspans : q.spans ≠ [] := by cases q <;> simp [Piece.spans]
    rw [resolve, List.foldl_cons, hq, List.flatMap_cons]
    simp [hspans]

theorem plainSpans_ne_nil (c : Char) (t : Content) : plainSpans (.char c :: t) ≠ [] := by
  have hfirst : ∀ p ∈ (⟨[], [], 0⟩ : Reading).pieces, p.stands := by simp
  have hone := filled_readOne hfirst [] '\n' (.char c) t (.inr (by simp))
  have hall : (readInline [] (Symbol.char c :: t).length ⟨[], [], 0⟩ '\n' (.char c :: t)).filled :=
    filled_readInline hone [] _ _
  refine resolve_ne_nil ?_ fun p hp => hall.2 p (List.mem_reverse.mp hp)
  exact fun he => hall.1 (List.reverse_eq_nil_iff.mp he)

end CanonMark.Markdown
