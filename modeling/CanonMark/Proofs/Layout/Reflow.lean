import CanonMark.Layout.Document

/-! # Spacing does not matter

Texts reach the output as words of a paragraph, as a heading, between emphasis delimiters, as the
text of a link and as the description of an image. Escaping looks at neighbouring characters before
the spaces are evened out. Outside tables, where cells are written on one line as they are, the
layout still depends on a text only through its flattened form.
-/
namespace CanonMark.Layout

mutual
/-- Trees that are equal but for texts outside tables, and there equal when flattened. -/
inductive Respaced : Node → Node → Prop where
  | text {l l' : Text} {cs cs' : List Node} : flatten l = flatten l' → RespacedAll cs cs' →
      Respaced (.mk .text l cs) (.mk .text l' cs')
  | table (alignments l cs) : Respaced (.mk (.table alignments) l cs) (.mk (.table alignments) l cs)
  | other (k l) {cs cs' : List Node} : k ≠ .text → (∀ alignments, k ≠ .table alignments) →
      RespacedAll cs cs' → Respaced (.mk k l cs) (.mk k l cs')

inductive RespacedAll : List Node → List Node → Prop where
  | nil : RespacedAll [] []
  | cons {n n' : Node} {ns ns' : List Node} : Respaced n n' → RespacedAll ns ns' →
      RespacedAll (n :: ns) (n' :: ns')
end

mutual
def flattened : Node → Node
  | .mk .text l cs => .mk .text (flatten l) (flattenedAll cs)
  | .mk (.table alignments) l cs => .mk (.table alignments) l cs
  | .mk k l cs => .mk k l (flattenedAll cs)

def flattenedAll : List Node → List Node
  | [] => []
  | n :: ns => flattened n :: flattenedAll ns
end

theorem flattened_other {k : Kind} (htext : k ≠ .text)
    (htable : ∀ alignments, k ≠ .table alignments)
    (l : Text) (cs : List Node) : flattened (.mk k l cs) = .mk k l (flattenedAll cs) := by
  cases k with
  | text => exact absurd rfl htext
  | table alignments => exact absurd rfl (htable alignments)
  | _ => rfl

mutual
theorem Respaced.flattened_eq : ∀ {m n : Node}, Respaced m n → flattened m = flattened n
  | .mk k l cs, n, h => by
    cases h with
    | text hl hcs => simp only [flattened, hl, RespacedAll.flattenedAll_eq hcs]
    | table alignments l cs => rfl
    | other k l htext htable hcs =>
      rw [flattened_other htext htable, flattened_other htext htable,
        RespacedAll.flattenedAll_eq hcs]

theorem RespacedAll.flattenedAll_eq : ∀ {ms ns : List Node}, RespacedAll ms ns →
    flattenedAll ms = flattenedAll ns
  | [], ns, h => by
    cases h with
    | nil => rfl
  | m :: ms, ns, h => by
    cases h with
    | cons hn hns =>
      rw [flattenedAll, flattenedAll, Respaced.flattened_eq hn, RespacedAll.flattenedAll_eq hns]
end

@[simp] theorem kind_flattened (n : Node) : (flattened n).kind = n.kind := by
  obtain ⟨k, l, cs⟩ := n
  cases k <;> rfl

@[simp] theorem isText_flattened (n : Node) : (flattened n).isText = n.isText := by
  simp [Node.isText]

theorem collapse_cons_of_ne {c : Char} (hc : c ≠ ' ') (t : Text) :
    collapse (c :: t) = c :: collapse t := by
  rw [collapse, if_neg (fun h => hc h.1)]

theorem head?_collapse (t : Text) : (collapse t).head? = t.head? := by
  induction t with
  | nil => rfl
  | cons c t ih =>
    rw [collapse]
    split
    · next h => rw [ih, h.2, h.1, List.head?_cons]
    · rfl

theorem collapse_cons_collapse (c : Char) (t : Text) :
    collapse (c :: collapse t) = collapse (c :: t) := by
  induction t generalizing c with
  | nil => rfl
  | cons d t ih =>
    by_cases h : d = ' ' ∧ t.head? = some ' '
    · have hd : collapse (d :: t) = collapse t := by rw [collapse, if_pos h]
      rw [hd, ih]
      obtain ⟨rfl, ht⟩ := h
      by_cases hc : c = ' '
      · subst hc
        rw [collapse, if_pos ⟨rfl, ht⟩, collapse, if_pos ⟨rfl, rfl⟩, hd]
      · rw [collapse_cons_of_ne hc, collapse_cons_of_ne hc, hd]
    · have hd : collapse (d :: t) = d :: collapse t := by rw [collapse, if_neg h]
      have hcd : ∀ u, (c = ' ' ∧ (d :: u).head? = some ' ') ↔ c = ' ' ∧ d = ' ' := by simp
      rw [hd, collapse, collapse.eq_2 c, ih, hd]
      simp only [hcd]

theorem collapse_append_collapse (s t : Text) : collapse (s ++ collapse t) = collapse (s ++ t) := by
  induction s with
  | nil =>
    induction t with
    | nil => rfl
    | cons c t ih =>
      simp only [List.nil_append] at ih ⊢
      rw [collapse]
      split
      · exact ih
      · rw [collapse_cons_collapse, collapse, if_neg ‹_›]
  | cons c s ih =>
    rw [List.cons_append, ← collapse_cons_collapse, ih, collapse_cons_collapse, List.cons_append]

theorem collapse_collapse_append (s t : Text) : collapse (collapse s ++ t) = collapse (s ++ t) := by
  induction s with
  | nil => rfl
  | cons c s ih =>
    rw [collapse]
    split
    · next h =>
      obtain ⟨rfl, hs⟩ := h
      have hhead : (s ++ t).head? = some ' ' := by rw [List.head?_append, hs, Option.some_or]
      rw [ih, List.cons_append, collapse, if_pos ⟨rfl, hhead⟩]
    · rw [List.cons_append, ← collapse_cons_collapse, ih, collapse_cons_collapse, List.cons_append]

theorem collapse_append {s : Text} (h : s.head? ≠ some ' ') (t : Text) :
    collapse (t ++ s) = collapse t ++ collapse s := by
  induction t with
  | nil => rfl
  | cons c t ih =>
    have hhead : (c = ' ' ∧ (t ++ s).head? = some ' ') ↔ c = ' ' ∧ t.head? = some ' ' := by
      cases t with
      | nil => simp [h]
      | cons d t => rfl
    rw [List.cons_append, collapse, collapse.eq_2 c, ih]
    simp only [hhead]
    split <;> rfl

theorem getLast?_collapse (t : Text) : (collapse t).getLast? = t.getLast? := by
  induction t with
  | nil => rfl
  | cons c t ih =>
    rw [collapse]
    split
    · next h =>
      cases t with
      | nil => exact absurd h.2 (by simp)
      | cons d t => rw [ih, List.getLast?_cons_cons]
    · rw [List.getLast?_cons, List.getLast?_cons, ih]

theorem mem_of_mem_collapse {c : Char} {t : Text} (h : c ∈ collapse t) : c ∈ t := by
  induction t with
  | nil => exact h
  | cons d t ih =>
    rw [collapse] at h
    split at h
    · exact List.mem_cons_of_mem _ (ih h)
    · rcases List.mem_cons.mp h with rfl | h
      · exact List.mem_cons_self
      · exact List.mem_cons_of_mem _ (ih h)

theorem unbroken_append (s t : Text) : unbroken (s ++ t) = unbroken s ++ unbroken t :=
  List.map_append

theorem newline_not_mem_unbroken (t : Text) : '\n' ∉ unbroken t := by
  intro h
  obtain ⟨c, -, hc⟩ := List.mem_map.mp h
  split at hc
  · exact absurd hc (by decide)
  · contradiction

theorem unbroken_of_not_mem {t : Text} (h : '\n' ∉ t) : unbroken t = t := by
  have hid : ∀ c ∈ t, (if c = '\n' then ' ' else c) = c := by
    intro c hc
    refine if_neg ?_
    rintro rfl
    exact h hc
  exact (List.map_congr_left hid).trans (List.map_id t)

theorem newline_not_mem_flatten (t : Text) : '\n' ∉ flatten t :=
  fun h => newline_not_mem_unbroken t (mem_of_mem_collapse h)

theorem unbroken_flatten (t : Text) : unbroken (flatten t) = flatten t :=
  unbroken_of_not_mem (newline_not_mem_flatten t)

theorem flatten_flatten (t : Text) : flatten (flatten t) = flatten t := by
  rw [flatten, unbroken_flatten]
  exact collapse_append_collapse [] (unbroken t)

theorem flatten_append_congr {s s' t t' : Text} (hs : flatten s = flatten s')
    (ht : flatten t = flatten t') : flatten (s ++ t) = flatten (s' ++ t') := by
  have hsplit : ∀ u v, flatten (u ++ v) = collapse (flatten u ++ flatten v) := by
    intro u v
    rw [flatten, flatten, flatten, unbroken_append, collapse_append_collapse,
      collapse_collapse_append]
  rw [hsplit, hsplit, hs, ht]

-- What decides about a character is its neighbour on either side, or a reference behind it, which
-- holds no space. So escaping and collapsing can be done in either order.
theorem endsReference_collapse (least most : Nat) {p : Char → Bool} (hp : p ' ' = false)
    (t : Text) : endsReference least most p (collapse t) = endsReference least most p t := by
  have hbody : (collapse t).takeWhile p = t.takeWhile p ∧
      ((collapse t).drop (t.takeWhile p).length).head? =
        (t.drop (t.takeWhile p).length).head? := by
    induction t with
    | nil => exact ⟨rfl, rfl⟩
    | cons c t ih =>
      by_cases hc : p c = true
      · have hne : c ≠ ' ' := by
          rintro rfl
          rw [hp] at hc
          exact absurd hc (by decide)
        rw [collapse_cons_of_ne hne, List.takeWhile_cons_of_pos hc, List.takeWhile_cons_of_pos hc]
        exact ⟨by rw [ih.1], ih.2⟩
      · rw [List.takeWhile_cons_of_neg hc]
        refine ⟨?_, head?_collapse (c :: t)⟩
        have hhead := head?_collapse (c :: t)
        cases hcol : collapse (c :: t) with
        | nil => rfl
        | cons d u =>
          rw [hcol] at hhead
          obtain rfl : d = c := Option.some.inj hhead
          exact List.takeWhile_cons_of_neg hc
  simp only [endsReference, hbody.1, hbody.2]

theorem isReference_number {t : Text} (hx : t.head? ≠ some 'x') (hX : t.head? ≠ some 'X') :
    isReference ('#' :: t) = endsReference 1 7 Text.isDigit t := by
  unfold isReference
  split
  · next h => exact absurd (by rw [(List.cons.inj h).2, List.head?_cons]) hx
  · next h => exact absurd (by rw [(List.cons.inj h).2, List.head?_cons]) hX
  · next h => rw [(List.cons.inj h).2]
  · next hno h => exact absurd (List.cons.inj h).1.symm (by simpa using hno)
  · next h => exact absurd h (by simp)

theorem isReference_name {c : Char} (hc : c ≠ '#') (t : Text) :
    isReference (c :: t) = (Text.isLetter c && endsReference 1 31 Text.isLetterOrDigit t) := by
  unfold isReference
  split
  · next h => exact absurd (List.cons.inj h).1 hc
  · next h => exact absurd (List.cons.inj h).1 hc
  · next h => exact absurd (List.cons.inj h).1 hc
  · next h => rw [(List.cons.inj h).1, (List.cons.inj h).2]
  · next h => exact absurd h (by simp)

theorem isReference_collapse (t : Text) : isReference (collapse t) = isReference t := by
  have hhex := endsReference_collapse 1 6 (p := Text.isHexDigit) (by decide)
  have hdigit := endsReference_collapse 1 7 (p := Text.isDigit) (by decide)
  have hname := endsReference_collapse 1 31 (p := Text.isLetterOrDigit) (by decide)
  cases t with
  | nil => rfl
  | cons c t =>
    by_cases hspace : c = ' '
    · subst hspace
      obtain ⟨u, hu⟩ := List.head?_eq_some_iff.mp (head?_collapse (' ' :: t))
      rw [hu]
      rfl
    rw [collapse_cons_of_ne hspace]
    by_cases hhash : c = '#'
    · subst hhash
      by_cases hx : t.head? = some 'x'
      · obtain ⟨u, rfl⟩ := List.head?_eq_some_iff.mp hx
        rw [collapse_cons_of_ne (by decide)]
        exact hhex u
      by_cases hX : t.head? = some 'X'
      · obtain ⟨u, rfl⟩ := List.head?_eq_some_iff.mp hX
        rw [collapse_cons_of_ne (by decide)]
        exact hhex u
      rw [isReference_number hx hX, ← hdigit]
      exact isReference_number (by rwa [head?_collapse]) (by rwa [head?_collapse])
    · rw [isReference_name hhash, isReference_name hhash, hname]

theorem isMarkup_collapse (prev : Option Char) (c : Char) (t : Text) :
    isMarkup prev c (collapse t) = isMarkup prev c t := by
  simp only [isMarkup, head?_collapse, isReference_collapse]

theorem isMarkup_space (prev : Option Char) (t : Text) : isMarkup prev ' ' t = false := rfl

/-- What stands before a space decides nothing about it. -/
theorem escapeFrom_of_space {t : Text} (h : t.head? = some ' ') (prev prev' : Option Char) :
    escapeFrom prev t = escapeFrom prev' t := by
  cases t with
  | nil => rfl
  | cons c t =>
    obtain rfl : c = ' ' := Option.some.inj h
    rfl

theorem head?_escapeFrom_space (prev : Option Char) (t : Text) :
    (escapeFrom prev t).head? = some ' ' ↔ t.head? = some ' ' := by
  cases t with
  | nil => rfl
  | cons c t =>
    rw [escapeFrom]
    split
    · next h =>
      refine ⟨fun he => absurd (Option.some.inj he) (by decide), fun he => ?_⟩
      obtain rfl : c = ' ' := Option.some.inj he
      rw [isMarkup_space] at h
      exact absurd h (by decide)
    · rfl

theorem escapeFrom_collapse (prev : Option Char) (t : Text) :
    escapeFrom prev (collapse t) = collapse (escapeFrom prev t) := by
  induction t generalizing prev with
  | nil => rfl
  | cons c t ih =>
    by_cases h : c = ' ' ∧ t.head? = some ' '
    · obtain ⟨rfl, ht⟩ := h
      have hhead := (head?_escapeFrom_space (some ' ') t).mpr ht
      rw [collapse, if_pos ⟨rfl, ht⟩, escapeFrom, isMarkup_space, if_neg (by decide), collapse,
        if_pos ⟨rfl, hhead⟩, ← ih]
      exact escapeFrom_of_space ((head?_collapse t).trans ht) _ _
    · rw [collapse, if_neg h, escapeFrom, escapeFrom, isMarkup_collapse, ih]
      have hstays :
          collapse (c :: escapeFrom (some c) t) = c :: collapse (escapeFrom (some c) t) := by
        rw [collapse, if_neg]
        rwa [head?_escapeFrom_space]
      split
      · rw [collapse_cons_of_ne (by decide), hstays]
      · rw [hstays]

theorem escape_collapse (t : Text) : escape (collapse t) = collapse (escape t) :=
  escapeFrom_collapse none t

theorem shieldBang_collapse (beforeLink : Bool) (t : Text) :
    shieldBang beforeLink (collapse t) = collapse (shieldBang beforeLink t) := by
  unfold shieldBang
  rw [getLast?_collapse]
  split
  · next h =>
    simp only [Bool.and_eq_true, beq_iff_eq] at h
    obtain ⟨u, rfl⟩ := List.getLast?_eq_some_iff.mp h.2
    rw [collapse_append (by decide), List.dropLast_concat, collapse_append (by decide)]
    exact congrArg (· ++ ['\\', '!']) List.dropLast_concat
  · rfl

theorem segments_ne_nil (ms : List Mark) : segments ms ≠ [] := by
  cases ms with
  | nil => simp [segments]
  | cons m ms =>
    cases m with
    | gap => simp [segments]
    | glyph c =>
      rw [segments]
      split <;> simp

theorem segments_append_gap (ms ns : List Mark) :
    segments (ms ++ .gap :: ns) = segments ms ++ segments ns := by
  induction ms with
  | nil => rfl
  | cons m ms ih =>
    cases m with
    | gap => rw [List.cons_append, segments, ih, segments, List.cons_append]
    | glyph c =>
      rw [List.cons_append, segments, ih, segments]
      cases hs : segments ms with
      | nil => exact absurd hs (segments_ne_nil ms)
      | cons s ss => rfl

theorem tokens_append_gap (ms ns : List Mark) :
    tokens (ms ++ .gap :: ns) = tokens ms ++ tokens ns := by
  rw [tokens, segments_append_gap, List.filter_append]
  rfl

theorem tokens_cons_gap (ms : List Mark) : tokens (.gap :: ms) = tokens ms :=
  tokens_append_gap [] ms

/-- Marks that give the same tokens wherever they stand. -/
def Interchangeable (ms ns : List Mark) : Prop :=
  ∀ before after, tokens (before ++ (ms ++ after)) = tokens (before ++ (ns ++ after))

theorem Interchangeable.tokens_eq {ms ns : List Mark} (h : Interchangeable ms ns) :
    tokens ms = tokens ns := by
  simpa using h [] []

theorem Interchangeable.append {ms ns ms' ns' : List Mark} (h : Interchangeable ms ns)
    (h' : Interchangeable ms' ns') : Interchangeable (ms ++ ms') (ns ++ ns') := by
  intro before after
  have hfirst := h before (ms' ++ after)
  have hsecond := h' (before ++ ns) after
  simp only [List.append_assoc] at hfirst hsecond ⊢
  exact hfirst.trans hsecond

theorem interchangeable_breakable_collapse (t : Text) :
    Interchangeable (breakable (collapse t)) (breakable t) := by
  intro before after
  induction t generalizing before with
  | nil => rfl
  | cons c t ih =>
    rw [collapse]
    split
    · next h =>
      obtain ⟨rfl, ht⟩ := h
      obtain ⟨u, rfl⟩ := List.head?_eq_some_iff.mp ht
      have hgaps : breakable (' ' :: ' ' :: u) = .gap :: .gap :: breakable u := rfl
      have hgap : breakable (' ' :: u) = .gap :: breakable u := rfl
      rw [ih before, hgaps, hgap, List.cons_append, List.cons_append, List.cons_append,
        tokens_append_gap, tokens_append_gap, tokens_cons_gap]
    · have hstep := ih (before ++ breakable [c])
      simpa [breakable] using hstep

theorem flattenedAll_eq_map (ns : List Node) : flattenedAll ns = ns.map flattened := by
  induction ns with
  | nil => rfl
  | cons n ns ih => rw [flattenedAll, ih, List.map_cons]

theorem any_isLink_flattenedAll (ns : List Node) :
    (flattenedAll ns).any (·.kind.isLink) = ns.any (·.kind.isLink) := by
  simp only [flattenedAll_eq_map, List.any_map, Function.comp_def, kind_flattened]

theorem head?_isLink_flattenedAll (ns : List Node) :
    (flattenedAll ns).head?.any (·.kind.isLink) = ns.head?.any (·.kind.isLink) := by
  cases ns with
  | nil => rfl
  | cons n ns => exact congrArg Kind.isLink (kind_flattened n)

mutual
theorem flatten_shown : ∀ n, flatten (flattened n).shown = flatten n.shown
  | .mk k l cs => by
    cases k with
    | text => exact flatten_flatten l
    | code => rfl
    | hardBreak => rfl
    | table alignments => rfl
    | _ => exact flatten_shownAll cs

theorem flatten_shownAll : ∀ ns, flatten (Node.shownAll (flattenedAll ns)) =
    flatten (Node.shownAll ns)
  | [] => rfl
  | n :: ns => flatten_append_congr (flatten_shown n) (flatten_shownAll ns)
end

theorem flatten_literal (n : Node) : flatten (flattened n).literal = flatten n.literal := by
  obtain ⟨k, l, cs⟩ := n
  cases k with
  | text => exact flatten_flatten l
  | _ => rfl

theorem flatten_literals (ns : List Node) :
    flatten ((flattenedAll ns).flatMap Node.literal) = flatten (ns.flatMap Node.literal) := by
  induction ns with
  | nil => rfl
  | cons n ns ih => exact flatten_append_congr (flatten_literal n) ih

theorem delimited_flattenedAll (delimiter : Text) (cs : List Node) :
    delimited delimiter (flattenedAll cs) = delimited delimiter cs := by
  have hempty : (flattenedAll cs).isEmpty = cs.isEmpty := by cases cs <;> rfl
  have hall : (flattenedAll cs).all Node.isText = cs.all Node.isText := by
    simp only [flattenedAll_eq_map, List.all_map, Function.comp_def, isText_flattened]
  rw [delimited, delimited, hempty, hall, flatten_literals]

/-- Computations that fail with the same error, or succeed with related results. -/
def Alike (R : α → α → Prop) (x y : Except LayoutError α) : Prop :=
  (∃ e, x = .error e ∧ y = .error e) ∨ ∃ a b, x = .ok a ∧ y = .ok b ∧ R a b

theorem alike_ok {R : α → α → Prop} {a b : α} (h : R a b) : Alike R (.ok a) (.ok b) :=
  .inr ⟨a, b, rfl, rfl, h⟩

theorem alike_refl {R : α → α → Prop} (h : ∀ a, R a a) (x : Except LayoutError α) :
    Alike R x x := by
  cases x with
  | ok a => exact alike_ok (h a)
  | error e => exact .inl ⟨e, rfl, rfl⟩

theorem Alike.bind_eq {R : α → α → Prop} {x y : Except LayoutError α} (h : Alike R x y)
    {f : α → Except LayoutError β} (hf : ∀ a b, R a b → f a = f b) : x >>= f = y >>= f := by
  obtain ⟨e, rfl, rfl⟩ | ⟨a, b, rfl, rfl, hab⟩ := h
  · rfl
  · exact hf a b hab

theorem textMarks_flatten (beforeLink : Bool) (l : Text) :
    Interchangeable (textMarks beforeLink (flatten l)) (textMarks beforeLink l) := by
  have hmarks : textMarks beforeLink (flatten l) =
      breakable (collapse (shieldBang beforeLink (escape (unbroken l)))) := by
    rw [textMarks, unbroken_flatten, flatten, escape_collapse, shieldBang_collapse]
  rw [hmarks]
  exact interchangeable_breakable_collapse _

mutual
theorem compileNode_flattened (beforeLink : Bool) :
    ∀ n, Alike Interchangeable (compileNode beforeLink (flattened n)) (compileNode beforeLink n)
  | .mk k l cs => by
    have hrefl : ∀ x : Except LayoutError (List Mark), Alike Interchangeable x x :=
      alike_refl fun _ _ _ => rfl
    cases k with
    | text => exact alike_ok (textMarks_flatten beforeLink l)
    | emphasis =>
      simp only [flattened, compileNode, delimited_flattenedAll]
      exact hrefl _
    | strong =>
      simp only [flattened, compileNode, delimited_flattenedAll]
      exact hrefl _
    | image destination title =>
      simp only [flattened, compileNode, imageMarks, trimFlatten, flatten_shownAll]
      exact hrefl _
    | link destination title =>
      simp only [flattened, compileNode, any_isLink_flattenedAll]
      -- the words of the link are tokens, so they are equal and not only interchangeable
      obtain ⟨e, hm, hn⟩ | ⟨ms, ns, hm, hn, h⟩ := compile_flattenedAll cs
      · simp only [hm, hn]
        exact hrefl _
      · simp only [hm, hn, h.tokens_eq]
        exact hrefl _
    | _ => exact hrefl _

theorem compile_flattenedAll :
    ∀ ns, Alike Interchangeable (compile (flattenedAll ns)) (compile ns)
  | [] => alike_ok fun _ _ => rfl
  | n :: ns => by
    simp only [flattenedAll, compile, head?_isLink_flattenedAll]
    obtain ⟨e, hm, hn⟩ | ⟨a, b, hm, hn, h⟩ :=
      compileNode_flattened (ns.head?.any (·.kind.isLink)) n
    · simp only [hm, hn]
      exact .inl ⟨e, rfl, rfl⟩
    · obtain ⟨e, hms, hns⟩ | ⟨as, bs, hms, hns, hs⟩ := compile_flattenedAll ns
      · simp only [hm, hn, hms, hns]
        exact .inl ⟨e, rfl, rfl⟩
      · simp only [hm, hn, hms, hns]
        exact alike_ok (h.append hs)
end

theorem inlineTokens_flattenedAll (ns : List Node) :
    inlineTokens (flattenedAll ns) = inlineTokens ns :=
  (compile_flattenedAll ns).bind_eq (f := fun ms => .ok (tokens ms))
    fun _ _ h => congrArg Except.ok h.tokens_eq

theorem headingText_flattenedAll (cs : List Node) :
    Alike (fun s t => flatten s = flatten t) (headingText (flattenedAll cs)) (headingText cs) := by
  induction cs with
  | nil => exact alike_ok rfl
  | cons c cs ih =>
    simp only [flattenedAll, headingText, isText_flattened, kind_flattened]
    split
    · obtain ⟨e, hm, hn⟩ | ⟨s, t, hm, hn, h⟩ := ih
      · rw [hm, hn]
        exact .inl ⟨e, rfl, rfl⟩
      · rw [hm, hn]
        exact alike_ok (flatten_append_congr (flatten_literal c) h)
    · exact .inl ⟨_, rfl, rfl⟩

theorem heading_flattenedAll (level : Nat) (cs : List Node) :
    heading level (flattenedAll cs) = heading level cs := by
  refine (headingText_flattenedAll cs).bind_eq ?_
  intro s t h
  have htrim : trimFlatten s = trimFlatten t := congrArg Text.trim h
  rw [htrim]

theorem paragraph_flattenedAll (w : Flow) (cs : List Node) :
    paragraph w (flattenedAll cs) = paragraph w cs := by
  rw [paragraph, inlineTokens_flattenedAll, paragraph]

mutual
theorem quoteChild_flattened (q : Flow) : ∀ n, quoteChild q (flattened n) = quoteChild q n
  | .mk k l cs => by
    cases k with
    | paragraph => exact paragraph_flattenedAll q cs
    | quote =>
      cases cs with
      | nil => rfl
      | cons c cs =>
        have h := quoteChildren_flattenedAll (q.nested quoteMargin) true (c :: cs)
        simp only [flattened, flattenedAll, quoteChild] at h ⊢
        rw [h]
    | _ => rfl

theorem quoteChildren_flattenedAll (q : Flow) (first : Bool) :
    ∀ ns, quoteChildren q first (flattenedAll ns) = quoteChildren q first ns
  | [] => rfl
  | n :: ns => by
    simp only [flattenedAll, quoteChildren, quoteChild_flattened, quoteChildren_flattenedAll]
end

mutual
theorem listItem_flattened (w : Flow) (marker : Text) :
    ∀ n, listItem w marker (flattened n) = listItem w marker n
  | .mk k l cs => by
    cases k with
    | item =>
      match cs with
      | [] => rfl
      | .mk first p run :: rest =>
        cases first with
        | paragraph =>
          simp only [flattened, flattenedAll, listItem, paragraph_flattenedAll,
            itemRest_flattenedAll]
        | _ => rfl
    | _ => rfl

theorem itemRest_flattenedAll (w : Flow) : ∀ ns, itemRest w (flattenedAll ns) = itemRest w ns
  | [] => rfl
  | [.mk k l items] => by
    cases k with
    | list ordered => exact listItems_flattenedAll w ordered 0 items
    | _ => rfl
  | .mk k l items :: m :: ns => by cases k <;> rfl

theorem listItems_flattenedAll (w : Flow) (ordered : Bool) (index : Nat) :
    ∀ ns, listItems w ordered index (flattenedAll ns) = listItems w ordered index ns
  | [] => rfl
  | n :: ns => by
    simp only [flattenedAll, listItems, listItem_flattened, listItems_flattenedAll]
end

theorem block_flattened (cols : Nat) (n : Node) : block cols (flattened n) = block cols n := by
  obtain ⟨k, l, cs⟩ := n
  cases k with
  | heading level => exact heading_flattenedAll level cs
  | paragraph => simp only [flattened, block, paragraph_flattenedAll]
  | quote =>
    have h := quoteChild_flattened (Flow.start cols ⟨[], []⟩) (.mk .quote l cs)
    simp only [flattened, block] at h ⊢
    rw [h]
  | list ordered => simp only [flattened, block, listItems_flattenedAll]
  | _ => rfl

theorem blocks_flattenedAll (cols : Nat) (ns : List Node) :
    blocks cols (flattenedAll ns) = blocks cols ns := by
  induction ns with
  | nil => rfl
  | cons n ns ih => rw [flattenedAll, blocks, block_flattened, ih, blocks]

theorem document_flattened (options : Options) (root : Node) :
    document options (flattened root) = document options root := by
  have hblock := block_flattened options.cols root
  obtain ⟨k, l, cs⟩ := root
  unfold document
  cases k with
  | document => exact congrArg (finish <$> ·) (blocks_flattenedAll options.cols cs)
  | _ => exact congrArg (finish <$> ·) hblock

/-- Trees that differ only in the spacing of texts outside tables are laid out alike at every width:
they give the same text, or they fail with the same error. -/
theorem document_eq_of_respaced (options : Options) {m n : Node} (h : Respaced m n) :
    document options m = document options n := by
  rw [← document_flattened options m, h.flattened_eq, document_flattened]

/-- A text in a heading, before a link, in the link, between emphasis delimiters and in the
description of an image. -/
def everyRoute (heading before words strong alt : String) : Node :=
  .branch .document
    [.branch (.heading 1) [.ofText heading.toList],
      .branch .paragraph
        [.ofText before.toList,
          .branch (.link "to".toList []) [.ofText words.toList],
          .branch .strong [.ofText strong.toList],
          .branch (.image "at".toList []) [.ofText alt.toList, .branch .hardBreak []]]]

theorem document_eq_of_respaced_everyRoute :
    Respaced (everyRoute "a b" "x_ y!" "one two" " c d" "e f ")
        (everyRoute "a \n b" "x_\n y!" "one   two" "\nc\nd" "e  f\n") ∧
      document ⟨80⟩ (everyRoute "a b" "x_ y!" "one two" " c d" "e f ") =
        document ⟨80⟩ (everyRoute "a \n b" "x_\n y!" "one   two" "\nc\nd" "e  f\n") ∧
      document ⟨80⟩ (everyRoute "a b" "x_ y!" "one two" " c d" "e f ") =
        .ok "# a b\n\nx\\_ y\\![one two](to)** c d**![e f](at)\n".toList := by
  have hrun : ∀ (k : Kind), k ≠ .text → (∀ a, k ≠ .table a) → ∀ {s t : Text} {ns : List Node},
      flatten s = flatten t → RespacedAll ns ns →
      Respaced (.branch k (.ofText s :: ns)) (.branch k (.ofText t :: ns)) :=
    fun k hk hk' _ _ _ h hns => .other k [] hk hk' (.cons (.text h .nil) hns)
  have hbreak : RespacedAll [.branch .hardBreak []] [.branch .hardBreak []] :=
    .cons (.other _ _ (by decide) (by simp) .nil) .nil
  have hall : Respaced (everyRoute "a b" "x_ y!" "one two" " c d" "e f ")
      (everyRoute "a \n b" "x_\n y!" "one   two" "\nc\nd" "e  f\n") := by
    refine .other .document [] (by decide) (by simp) (.cons ?_ (.cons ?_ .nil))
    · exact hrun _ (by decide) (by simp) (by decide) .nil
    · refine .other .paragraph [] (by decide) (by simp)
        (.cons (.text (by decide) .nil) (.cons ?_ (.cons ?_ (.cons ?_ .nil))))
      · exact hrun _ (by decide) (by simp) (by decide) .nil
      · exact hrun _ (by decide) (by simp) (by decide) .nil
      · exact hrun _ (by decide) (by simp) (by decide) hbreak
  exact ⟨hall, document_eq_of_respaced ⟨80⟩ hall, by rfl⟩

end CanonMark.Layout
