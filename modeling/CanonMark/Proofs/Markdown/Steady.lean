import CanonMark.Proofs.Layout.Grammar
import CanonMark.Proofs.Markdown.Brackets
import CanonMark.Proofs.Markdown.Trees

/-! # Runs read back

A run is steady if each of its nodes is read back as a node of its kind with the same markup. That
can be told from the nodes and the characters between them, and not from where the lines end. Main
statement: what a steady run was written as is read as a run with the same markup.
-/
namespace CanonMark.Markdown

open Layout (Ink Flat fixedInks textInks textInksFrom tailInks titleInks delimitedInks nodeInks runInks
  inkMarks isBare Evened flatten trimFlatten flattened flattenedAll compile compileNode linkMarks
  inlineTokens unbroken titleInk Compilable AutolinkForm codeSpan)

def lastOf : Node → Char
  | .mk .text l _ => (flatten l).getLast?.getD ' '
  | .mk .code _ _ => '\x60'
  | .mk (.link d t) _ cs => if isBare d t cs then '>' else ']'
  | .mk (.image _ _) _ _ => ']'
  | _ => '*'

/-- Whether asterisks around a text are read as emphasis of it between these characters. -/
def isClinging (before next : Char) (t : Text) : Bool :=
  !t.isEmpty && readable t && canOpen '*' before (firstOf (textInks false t) '*') &&
    canClose '*' (t.getLast?.getD '*') next && next != '*'

mutual
/-- Whether a node is read back between these characters. -/
def isSteady (before next : Char) : Node → Bool
  | .mk .text l _ => !(flatten l).isEmpty && readable (flatten l)
  | .mk .emphasis _ cs => isClinging before next (flatten (cs.flatMap Node.literal))
  | .mk .strong _ cs => isClinging before next (flatten (cs.flatMap Node.literal))
  | .mk .code l _ => !l.isEmpty && next != '\x60'
  | .mk (.link d t) _ cs =>
    if isBare d t cs then isBare d t [.ofText d] && d.all fun x => 32 < x.toNat && x != '|'
    else isSteadyTarget d t && decide (Evened (runInks cs)) && areSteady '[' ']' cs
  | .mk (.image d t) _ cs => isSteadyTarget d t && readable (trimFlatten (Node.shownAll cs))
  | _ => false

/-- Whether the nodes of a run are read back. Two neighbouring texts would be read as one. -/
def areSteady (before next : Char) : List Node → Bool
  | [] => true
  | n :: ns =>
    isSteady before (firstOf (runInks ns) next) n && !(n.isText && ns.head?.any Node.isText) &&
      areSteady (lastOf n) next ns
end

theorem areSteady_cons {before next : Char} {n : Node} {ns : List Node} :
    areSteady before next (n :: ns) = true ↔
      isSteady before (firstOf (runInks ns) next) n = true ∧
        (n.isText = true → ∀ k ∈ ns.head?, k.isText = false) ∧ areSteady (lastOf n) next ns = true := by
  have hapart : (!(n.isText && ns.head?.any Node.isText)) = true ↔
      (n.isText = true → ∀ k ∈ ns.head?, k.isText = false) := by
    cases n.isText with
    | false => simp
    | true => cases ns.head? <;> simp
  rw [areSteady, Bool.and_eq_true, Bool.and_eq_true, hapart, and_assoc]

theorem isBare_eq {cs : List Node} {words : List Text} (h : inlineTokens cs = .ok words)
    (d t : Text) :
    isBare d t cs = (t.isEmpty && Text.join [' '] words == d && Layout.isAutolink d) := by
  rw [isBare, h]

theorem isBare_flattenedAll (d t : Text) (cs : List Node) :
    isBare d t (flattenedAll cs) = isBare d t cs := by
  rw [isBare, isBare, Layout.inlineTokens_flattenedAll]

theorem compileNode_bare {d t : Text} {cs : List Node} (h : isBare d t cs = true)
    (hlink : cs.any (·.kind.isLink) = false) (beforeLink : Bool) (l : Text) :
    compileNode beforeLink (.mk (.link d t) l cs) = .ok (Layout.solid ('<' :: d ++ ['>'])) := by
  cases hcompile : compile cs with
  | error e =>
    have htokens : inlineTokens cs = .error e := by rw [inlineTokens, hcompile]; rfl
    rw [isBare, htokens] at h
    cases h
  | ok ms =>
    have htokens : inlineTokens cs = .ok (Layout.tokens ms) := by rw [inlineTokens, hcompile]; rfl
    rw [isBare_eq htokens] at h
    rw [compileNode, hlink, if_neg (by simp), hcompile]
    simp only [linkMarks, h, if_true]

theorem compileNode_bracketed {d t : Text} {cs : List Node} {is : List Ink}
    (hbare : isBare d t cs = false) (hlink : cs.any (·.kind.isLink) = false)
    (hcompile : compile cs = .ok (inkMarks is)) (heven : Evened is) (beforeLink : Bool) (l : Text) :
    compileNode beforeLink (.mk (.link d t) l cs) =
      .ok (inkMarks (fixedInks ['['] ++ is ++ tailInks d t)) := by
  have htokens : inlineTokens cs = .ok (Layout.tokens (inkMarks is)) := by
    rw [inlineTokens, hcompile]
    rfl
  rw [isBare_eq htokens] at hbare
  rw [compileNode, hlink, if_neg (by simp), hcompile]
  simp only [linkMarks, hbare, Bool.false_eq_true, if_false, heven.spaced_tokens_eq]
  rw [Layout.inkMarks_append, Layout.inkMarks_append, Layout.inkMarks_fixedInks,
    Layout.inkMarks_tailInks]
  rfl

theorem inkMarks_delimited {delimiter : Text} (h : ' ' ∉ delimiter) {t : Text} :
    inkMarks (fixedInks delimiter ++ textInks false t ++ fixedInks delimiter) =
      Layout.breakable (delimiter ++ Layout.escape t ++ delimiter) := by
  have hsolid : Layout.solid delimiter = Layout.breakable delimiter := by
    refine List.map_congr_left fun c hc => ?_
    rw [if_neg]
    rintro rfl
    exact h hc
  rw [Layout.inkMarks_append, Layout.inkMarks_append, Layout.inkMarks_fixedInks, hsolid,
    Layout.inkMarks_textInks]
  simp [Layout.breakable, Layout.shieldBang]

theorem delimited_inks {delimiter : Text} (h : ' ' ∉ delimiter) {cs : List Node} (hne : cs ≠ [])
    (htexts : ∀ c ∈ cs, c.isText) :
    Layout.delimited delimiter (flattenedAll cs) = .ok (inkMarks (delimitedInks delimiter cs)) := by
  have hguard : (cs.isEmpty || !cs.all Node.isText) = false := by simpa [hne] using htexts
  rw [Layout.delimited_flattenedAll, Layout.delimited, hguard, if_neg (by simp), delimitedInks,
    inkMarks_delimited h]

theorem any_isLink_of_compilable {cs : List Node} (h : ∀ c ∈ cs, ¬ c.kind.isLink) :
    cs.any (·.kind.isLink) = false := by
  simpa using h

mutual
theorem compileNode_steady {before next : Char} (beforeLink : Bool) : ∀ n, Compilable n →
    isSteady before next n = true →
      compileNode beforeLink (flattened n) = .ok (inkMarks (nodeInks beforeLink n))
  | .mk k l cs, hn, h => by
    cases hn with
    | text =>
      have hmarks := Layout.inkMarks_textInks beforeLink (flatten l)
      rw [flattened, compileNode, nodeInks, Layout.textMarks, Layout.unbroken_flatten, hmarks]
    | code =>
      rw [Layout.flattened_other (by simp) (by simp), compileNode, nodeInks,
        Layout.inkMarks_fixedInks]
    | emphasis _ hne htexts =>
      rw [Layout.flattened_other (by simp) (by simp), compileNode, nodeInks,
        delimited_inks (by decide) hne htexts]
    | strong _ hne htexts =>
      rw [Layout.flattened_other (by simp) (by simp), compileNode, nodeInks,
        delimited_inks (by decide) hne htexts]
    | image d t =>
      have hmarks := Layout.inkMarks_textInks false (trimFlatten (Node.shownAll cs))
      rw [Layout.flattened_other (by simp) (by simp), compileNode, nodeInks, Layout.imageMarks,
        trimFlatten, Layout.flatten_shownAll, Layout.inkMarks_append, Layout.inkMarks_append,
        Layout.inkMarks_fixedInks, Layout.inkMarks_tailInks]
      rw [trimFlatten] at hmarks
      rw [trimFlatten, hmarks]
      rfl
    | link d t _ hlinks hcs =>
      have hlink : (flattenedAll cs).any (·.kind.isLink) = false := by
        rw [Layout.any_isLink_flattenedAll]
        exact any_isLink_of_compilable hlinks
      rw [isSteady] at h
      rw [Layout.flattened_other (by simp) (by simp), nodeInks]
      cases hbare : isBare d t cs with
      | true =>
        rw [if_pos rfl, Layout.inkMarks_fixedInks]
        exact compileNode_bare (by rw [isBare_flattenedAll, hbare]) hlink beforeLink l
      | false =>
        rw [hbare, if_neg (by simp), Bool.and_eq_true, Bool.and_eq_true, decide_eq_true_eq] at h
        rw [if_neg (by simp)]
        exact compileNode_bracketed (by rw [isBare_flattenedAll, hbare]) hlink
          (compile_steady cs hcs h.2) h.1.2 beforeLink l

theorem compile_steady {before next : Char} : ∀ ns, (∀ n ∈ ns, Compilable n) →
    areSteady before next ns = true → compile (flattenedAll ns) = .ok (inkMarks (runInks ns))
  | [], _, _ => rfl
  | n :: ns, hns, h => by
    obtain ⟨hn, -, hrest⟩ := areSteady_cons.mp h
    have hone := compileNode_steady (ns.head?.any (·.kind.isLink)) n (hns n (by simp)) hn
    have hmore := compile_steady ns (fun k hk => hns k (by simp [hk])) hrest
    rw [flattenedAll, compile, Layout.head?_isLink_flattenedAll, hone, hmore, runInks,
      Layout.inkMarks_append]
end

theorem led_textInks (bang : Bool) (t : Text) : Led false (textInks bang t) :=
  led_of_not_fixed (Layout.fixed_not_mem_textInks bang t)

theorem led_delimitedInks {delimiter : Text} (h : ∀ c ∈ delimiter.head?, isOpener c = true)
    (cs : List Node) : Led false (delimitedInks delimiter cs) :=
  ((led_fixedInks h).append (led_textInks false _)).append (led_fixedInks h)

theorem codeSpan_begins (l : Text) : (codeSpan l).head? = some '\x60' := by
  unfold codeSpan
  simp only [List.replicate_succ, List.cons_append]
  split <;> rfl

theorem led_title (t : Text) : Led false (t.map titleInk) := by
  refine led_of_not_fixed fun c hc => ?_
  obtain ⟨x, -, hx⟩ := List.mem_map.mp hc
  rw [titleInk] at hx
  split at hx
  · cases hx
  · split at hx <;> cases hx

theorem led_tailInks (d t : Text) : Led false (tailInks d t) := by
  have happend : ∀ u v : Text, fixedInks u ++ fixedInks v = fixedInks (u ++ v) :=
    fun u v => List.map_append.symm
  by_cases hnil : t = []
  · subst hnil
    have hone : tailInks d [] = fixedInks ("](".toList ++ Layout.linkDestination d ++ [')']) := by
      have hnone : titleInks [] = [] := rfl
      rw [tailInks, hnone, List.append_nil, happend, happend]
    rw [hone]
    exact led_fixedInks (by simp [isOpener])
  · have hempty : t.isEmpty = false := by simpa using hnil
    have htwo : tailInks d t = fixedInks ("](".toList ++ Layout.linkDestination d) ++
        (.gap :: (fixedInks ['\x22'] ++ t.map titleInk ++ fixedInks "\x22)".toList)) := by
      rw [tailInks, happend, titleInks, hempty, if_neg (by simp)]
      simp [fixedInks]
    have hquoted : Led false (fixedInks ['\x22'] ++ t.map titleInk ++ fixedInks "\x22)".toList) :=
      ((led_fixedInks (by simp [isOpener])).append (led_title t)).append
        (led_fixedInks (by simp [isOpener]))
    rw [htwo]
    exact (led_fixedInks (by simp [isOpener])).append hquoted

theorem nodeInks_begins {n : Node} (hn : Compilable n) (htext : n.isText = false)
    (beforeLink : Bool) : ∃ c is, nodeInks beforeLink n = .fixed c :: is ∧
      (c ∈ "*\x60<!]".toList ∨ c = '[' ∧ n.kind.isLink = true) := by
  cases hn with
  | text => cases htext
  | code l cs =>
    have hbegins := codeSpan_begins l
    obtain ⟨u, hu⟩ := List.head?_eq_some_iff.mp hbegins
    rw [nodeInks, hu]
    exact ⟨_, _, rfl, .inl (by decide)⟩
  | image d t l cs => exact ⟨_, _, rfl, .inl (by decide)⟩
  | emphasis l => exact ⟨_, _, rfl, .inl (by decide)⟩
  | strong l => exact ⟨_, _, rfl, .inl (by decide)⟩
  | @link d t l cs =>
    rw [nodeInks]
    split
    · exact ⟨_, _, rfl, .inl (by decide)⟩
    · exact ⟨_, _, rfl, .inr ⟨rfl, rfl⟩⟩

mutual
theorem led_nodeInks {before next : Char} (beforeLink : Bool) : ∀ n, Compilable n →
    isSteady before next n = true → Led false (nodeInks beforeLink n)
  | .mk k l cs, hn, h => by
    cases hn with
    | text => exact led_textInks beforeLink _
    | code => exact led_fixedInks (by simp [codeSpan_begins, isOpener])
    | emphasis => exact led_delimitedInks (by simp [isOpener]) cs
    | strong => exact led_delimitedInks (by simp [isOpener]) cs
    | image d t =>
      rw [isSteady, Bool.and_eq_true, isSteadyTarget_iff] at h
      exact ((led_fixedInks (by simp [isOpener])).append (led_textInks false _)).append
        (led_tailInks d t)
    | link d t _ _ hcs =>
      rw [isSteady] at h
      rw [nodeInks]
      split
      · exact led_fixedInks (by simp [isOpener])
      · next hbare =>
        rw [if_neg hbare, Bool.and_eq_true, Bool.and_eq_true, isSteadyTarget_iff] at h
        exact ((led_fixedInks (by simp [isOpener])).append (led_runInks cs hcs h.2)).append
          (led_tailInks d t)

theorem led_runInks {before next : Char} : ∀ ns, (∀ n ∈ ns, Compilable n) →
    areSteady before next ns = true → Led false (runInks ns)
  | [], _, _ => trivial
  | n :: ns, hns, h => by
    obtain ⟨hn, -, hrest⟩ := areSteady_cons.mp h
    exact (led_nodeInks _ n (hns n (by simp)) hn).append
      (led_runInks ns (fun k hk => hns k (by simp [hk])) hrest)
end

/-- Whether a kind has no title, or one without a line feed. -/
def isWholeTitle : Kind → Bool
  | .link _ t => !t.contains '\n'
  | .image _ t => !t.contains '\n'
  | _ => true

mutual
/-- Whether no title in a node goes on behind the end of a line. -/
def wholeTitles : Node → Bool
  | .mk k _ cs => isWholeTitle k && allWholeTitles cs

def allWholeTitles : List Node → Bool
  | [] => true
  | n :: ns => wholeTitles n && allWholeTitles ns
end

theorem children_whole {k : Kind} {l : Text} {ns : List Node}
    (h : wholeTitles (.mk k l ns) = true) : allWholeTitles ns = true :=
  (Bool.and_eq_true_iff.mp h).2

/-- What a node is read back as: a node with the same markup, as long as no line ends within a
title. -/
structure Echoes (m n : Node) : Prop where
  text : m.isText = n.isText
  link : m.kind.isLink = n.kind.isLink
  markup : wholeTitles m = true →
    ∀ beforeLink, compileNode beforeLink m = compileNode beforeLink (flattened n)

theorem compile_echoes {ms ns : List Node} (h : List.Forall₂ Echoes ms ns)
    (hwhole : allWholeTitles ms = true) : compile ms = compile (flattenedAll ns) := by
  induction h with
  | nil => rfl
  | @cons m n ms ns hone hrest ih =>
    obtain ⟨hm, hms⟩ := Bool.and_eq_true_iff.mp hwhole
    have hlink : ms.head?.any (·.kind.isLink) = ns.head?.any (·.kind.isLink) := by
      cases hrest with
      | nil => rfl
      | cons hnext _ => exact hnext.link
    rw [flattenedAll, compile, compile, Layout.head?_isLink_flattenedAll, hlink, hone.markup hm,
      ih hms]

theorem any_isLink_echoes {ms ns : List Node} (h : List.Forall₂ Echoes ms ns) :
    ms.any (·.kind.isLink) = ns.any (·.kind.isLink) := by
  induction h with
  | nil => rfl
  | cons hone _ ih => rw [List.any_cons, List.any_cons, hone.link, ih]

theorem spansNodes_append (acc : List Node) (ss rs : List Span) :
    spansNodes acc (ss ++ rs) = spansNodes (spansNodes acc ss) rs := by
  induction ss generalizing acc with
  | nil => rfl
  | cons s ss ih => exact ih _

/-- Content that is read as a node, with `rest` behind it. -/
def NodeReads (linked : Bool) (prev : Char) (n : Node) (c rest : Content) : Prop :=
  ∃ ps ss last, Settles ps ss ∧ Yields linked prev c rest ps last ∧ Trails (lastOf n) last ∧
    ∀ acc : List Node, (n.isText = true → ∀ k ∈ acc.getLast?, k.isText = false) →
      ∃ m, spansNodes acc ss = acc ++ [m] ∧ Echoes m n

def RunReads (linked : Bool) (prev : Char) (ns : List Node) (c rest : Content) : Prop :=
  ∃ ps ss last, Settles ps ss ∧ Yields linked prev c rest ps last ∧
    ∀ acc : List Node,
      (∀ n ∈ ns.head?, n.isText = true → ∀ k ∈ acc.getLast?, k.isText = false) →
        ∃ ms, spansNodes acc ss = acc ++ ms ∧ List.Forall₂ Echoes ms ns

theorem runReads_nil (linked : Bool) (prev : Char) (rest : Content) :
    RunReads linked prev [] [] rest :=
  ⟨[], [], prev, settles_spans [], yields_nil linked prev rest,
    fun acc _ => ⟨[], (List.append_nil acc).symm, .nil⟩⟩

theorem NodeReads.cons {linked : Bool} {prev : Char} {n : Node} {ns : List Node}
    {c d rest : Content} (h : NodeReads linked prev n c (d ++ rest))
    (hapart : n.isText = true → ∀ k ∈ ns.head?, k.isText = false)
    (hbehind : ∀ last, Trails (lastOf n) last → RunReads linked last ns d rest) :
    RunReads linked prev (n :: ns) (c ++ d) rest := by
  obtain ⟨ps, ss, mid, hsettles, hyields, htrails, hnode⟩ := h
  obtain ⟨qs, rs, last, hsettles', hyields', hrun⟩ := hbehind mid htrails
  refine ⟨ps ++ qs, ss ++ rs, last, hsettles.append hsettles', hyields.append hyields', ?_⟩
  intro acc hacc
  obtain ⟨m, hm, hecho⟩ := hnode acc (hacc n rfl)
  have hnext : ∀ k ∈ ns.head?, k.isText = true → ∀ j ∈ (acc ++ [m]).getLast?, j.isText = false := by
    intro k hk hktext j hj
    rw [List.getLast?_concat] at hj
    obtain rfl := Option.some.inj hj
    cases htext : n.isText with
    | true =>
      rw [hapart htext k hk] at hktext
      cases hktext
    | false => rw [hecho.text, htext]
  obtain ⟨ms, hms, hechoes⟩ := hrun (acc ++ [m]) hnext
  refine ⟨m :: ms, ?_, .cons hecho hechoes⟩
  rw [spansNodes_append, hm, hms, List.append_assoc]
  rfl

theorem nodeReads_span {linked : Bool} {prev : Char} {n m : Node} {c rest : Content} {s : Span}
    (h : Yields linked prev c rest [.span s] (lastOf n))
    (hs : ∀ acc, spanNodes acc s = acc ++ [m]) (hecho : Echoes m n) :
    NodeReads linked prev n c rest :=
  ⟨[.span s], [s], lastOf n, settles_spans [s], h, .inl rfl, fun acc _ => ⟨m, hs acc, hecho⟩⟩

theorem flatten_eq_of_unbroken {u l : Text} (h : unbroken u = flatten l) : flatten u = flatten l := by
  have hflat := Layout.flatten_flatten l
  rw [flatten, Layout.unbroken_flatten] at hflat
  rw [flatten, h, hflat]

theorem text_reads_back {l : Text} (cs : List Node) (hne : flatten l ≠ [])
    (hread : readable (flatten l) = true) {linked beforeLink : Bool} (prev : Char) {c rest : Content}
    (h : Laid (textInks beforeLink (flatten l)) c) (hrest : Stops beforeLink rest) :
    NodeReads linked prev (.mk .text l cs) c rest := by
  obtain ⟨ss, last, hsays, hyields, htrails⟩ :=
    prose_reads hread (Layout.flat_flatten l) prev h hrest
  have hd := List.getLast?_eq_some_getLast hne
  refine ⟨ss.map .span, ss, last, settles_spans ss, hyields.weaken linked, ?_, fun acc hacc => ?_⟩
  · rw [hd] at htrails
    rw [lastOf, hd]
    exact htrails
  · obtain ⟨u, hnodes, hu⟩ := hsays.nodes hne acc (hacc rfl)
    refine ⟨.ofText u, hnodes, rfl, rfl, fun _ beforeLink => ?_⟩
    change Except.ok (Layout.textMarks beforeLink u) = .ok (Layout.textMarks beforeLink (flatten l))
    rw [Layout.textMarks, Layout.textMarks, hu, Layout.unbroken_flatten]

theorem code_reads_back {l : Text} (cs : List Node) (hne : l ≠ []) {linked : Bool} (prev : Char)
    {c rest : Content} (h : Laid (fixedInks (codeSpan l)) c) {next : Char} (hrest : Meets next rest)
    (hnext : next ≠ '\x60') : NodeReads linked prev (.mk .code l cs) c rest := by
  have hyields := code_yields hne prev h hrest hnext
  refine nodeReads_span (hyields.weaken linked) (fun acc => rfl) ⟨rfl, rfl, fun _ beforeLink => ?_⟩
  have hsame : codeSpan (unbroken l) = codeSpan l := by
    simp only [codeSpan, Layout.unbroken_of_not_mem (Layout.newline_not_mem_unbroken l)]
  rw [Layout.flattened_other (by simp) (by simp), Node.leaf, compileNode, compileNode, hsame]

theorem delimited_echoes {k : Kind} (hk : k = .emphasis ∨ k = .strong) {u l : Text} {cs : List Node}
    (hne : cs ≠ []) (htexts : ∀ c ∈ cs, c.isText)
    (hu : unbroken u = flatten (cs.flatMap Node.literal)) :
    Echoes (.branch k [.ofText u]) (.mk k l cs) := by
  have hdelimited : ∀ delimiter, Layout.delimited delimiter [.ofText u] =
      Layout.delimited delimiter (flattenedAll cs) := by
    intro delimiter
    have hguard : (cs.isEmpty || !cs.all Node.isText) = false := by simpa [hne] using htexts
    have hone : [Node.ofText u].flatMap Node.literal = u := List.append_nil u
    rw [Layout.delimited_flattenedAll, Layout.delimited, Layout.delimited, hguard, hone,
      flatten_eq_of_unbroken hu]
    rfl
  refine ⟨rfl, rfl, fun _ beforeLink => ?_⟩
  rcases hk with rfl | rfl
  · rw [Layout.flattened_other (by simp) (by simp), Node.branch, compileNode, compileNode, hdelimited]
  · rw [Layout.flattened_other (by simp) (by simp), Node.branch, compileNode, compileNode, hdelimited]

theorem isClinging_iff {before next : Char} {t : Text} : isClinging before next t = true ↔
    t ≠ [] ∧ readable t = true ∧ canOpen '*' before (firstOf (textInks false t) '*') = true ∧
      canClose '*' (t.getLast?.getD '*') next = true ∧ next ≠ '*' := by
  simp [isClinging, and_assoc]

theorem delimited_reads_back {k : Kind} {n : Nat} (hk : k = .emphasis ∧ n = 1 ∨ k = .strong ∧ n = 2)
    (l : Text) {cs : List Node} (hne : cs ≠ []) (htexts : ∀ c ∈ cs, c.isText)
    {before prev next : Char} (h : isClinging before next (flatten (cs.flatMap Node.literal)) = true)
    (hprev : Trails before prev) {linked : Bool} {c rest : Content}
    (hc : Laid (delimitedInks (List.replicate n '*') cs) c) (hrest : Meets next rest) :
    NodeReads linked prev (.mk k l cs) c rest := by
  obtain ⟨ht, hread, hopen, hclose, hnext⟩ := isClinging_iff.mp h
  have hn : n = 1 ∨ n = 2 := by tauto
  obtain ⟨ps, ss, hsays, hsettles, hyields⟩ := delimited_yields hn ht hread
    (Layout.flat_flatten _) hprev hc hrest hnext hopen hclose
  obtain ⟨u, hnodes, hu⟩ := hsays.nodes ht [] (by simp)
  have hecho : Echoes (.branch k [.ofText u]) (.mk k l cs) :=
    delimited_echoes (by tauto) hne htexts hu
  refine ⟨ps, enclose n ss, '*', hsettles, hyields.weaken linked, ?_, fun acc _ => ⟨_, ?_, hecho⟩⟩
  · rcases hk with ⟨rfl, -⟩ | ⟨rfl, -⟩
    · exact .inl rfl
    · exact .inl rfl
  · rcases hk with ⟨rfl, rfl⟩ | ⟨rfl, rfl⟩
    · rw [← List.nil_append [Node.ofText u], ← hnodes]
      rfl
    · rw [← List.nil_append [Node.ofText u], ← hnodes]
      rfl

theorem shownAll_append (ms ns : List Node) :
    Node.shownAll (ms ++ ns) = Node.shownAll ms ++ Node.shownAll ns := by
  induction ms with
  | nil => rfl
  | cons m ms ih => rw [List.cons_append, Node.shownAll, Node.shownAll, ih, List.append_assoc]

theorem shownAll_addedText (acc : List Node) (t : Text) :
    Node.shownAll (addedText acc t) = Node.shownAll acc ++ t := by
  obtain ⟨-, hadded⟩ | ⟨front, last, hlast, rfl, hadded⟩ := addedText_cases acc t
  · rw [hadded, shownAll_append]
    exact congrArg (Node.shownAll acc ++ ·) (List.append_nil t)
  · obtain ⟨k, l, cs⟩ := last
    obtain rfl : k = .text := by simpa [Node.isText, Node.kind] using hlast
    rw [hadded, shownAll_append, shownAll_append, List.append_assoc]
    exact congrArg (Node.shownAll front ++ ·) (by simp [Node.shownAll, Node.shown, Node.addLiteral])

theorem Says.shown {ss : List Span} {t : Text} (h : Says ss t) (acc : List Node) :
    unbroken (Node.shownAll (spansNodes acc ss)) = unbroken (Node.shownAll acc) ++ t := by
  induction h generalizing acc with
  | nil => simp [spansNodes]
  | text u _ ih =>
    rw [spansNodes, ih, spanNodes, shownAll_addedText, Layout.unbroken_append, List.append_assoc]
  | softBreak _ ih =>
    rw [spansNodes, ih, spanNodes, shownAll_addedText, Layout.unbroken_append, List.append_assoc]
    rfl

theorem trimFlatten_of_unbroken {u l : Text} (h : unbroken u = trimFlatten l) :
    trimFlatten u = trimFlatten l := by
  have hflat := (Layout.flat_trimFlatten l).flatten_eq
  have hline : unbroken (trimFlatten l) = trimFlatten l := by
    rw [← hflat, Layout.unbroken_flatten]
  have hsame : flatten u = flatten (trimFlatten l) := by
    rw [flatten, flatten, h, hline]
  rw [trimFlatten, hsame]
  exact Layout.trimFlatten_trimFlatten l

theorem laid_tailInks_stops {d t : Text} {c : Content} (h : Laid (tailInks d t) c) (rest : Content) :
    Meets ']' (c ++ rest) ∧ Stops false (c ++ rest) := by
  have hsplit : tailInks d t = .fixed ']' :: (fixedInks ['('] ++
      fixedInks (Layout.linkDestination d) ++ titleInks t ++ fixedInks [')']) := rfl
  rw [hsplit] at h
  cases h with
  | fixed hs _ =>
    obtain rfl := symbol_eq hs (by decide)
    refine ⟨.char rfl, fun s hs => ⟨']', ?_, .inl (by decide)⟩⟩
    exact (Option.some.inj hs).symm

theorem eq_of_whole {u t : Text} (hu : unbroken u = t) (hwhole : (!u.contains '\n') = true) :
    u = t := by
  rw [← hu, Layout.unbroken_of_not_mem (by simpa using hwhole)]

theorem image_reads_back {d t : Text} (l : Text) {cs : List Node}
    (ht : SteadyTarget d t) (hread : readable (trimFlatten (Node.shownAll cs)) = true)
    {linked : Bool} (prev : Char) {c rest : Content}
    (h : Laid (fixedInks "![".toList ++ textInks false (trimFlatten (Node.shownAll cs)) ++
      tailInks d t) c) (hrest : rest.dropCut = rest) :
    NodeReads linked prev (.mk (.image d t) l cs) c rest := by
  obtain ⟨front, tail, rfl, hfront, htail⟩ := h.split
  obtain ⟨mark, inner, rfl, hmark, hinner⟩ := hfront.split
  obtain rfl := laid_fixedInks hmark (by decide)
  obtain ⟨ss, last, hsays, hyields, -⟩ := prose_reads hread (Layout.flat_trimFlatten _) '[' hinner
    (laid_tailInks_stops htail rest).2
  obtain ⟨u, hu, himage⟩ := @brackets_yield true linked (.inl rfl) d t ht prev _ _ _ _ _ _
    hyields (settles_spans ss) htail hrest
  refine nodeReads_span himage (fun acc => rfl) ⟨rfl, rfl, fun hwhole beforeLink => ?_⟩
  obtain rfl := eq_of_whole hu (Bool.and_eq_true_iff.mp hwhole).1
  have hshown := hsays.shown []
  have halt := trimFlatten_of_unbroken hshown
  have hflat : trimFlatten (Node.shownAll (flattenedAll cs)) = trimFlatten (Node.shownAll cs) :=
    congrArg Text.trim (Layout.flatten_shownAll cs)
  rw [Layout.flattened_other (by simp) (by simp), Node.branch, compileNode, compileNode,
    Layout.imageMarks, Layout.imageMarks, halt, hflat]

theorem link_reads_back {d t : Text} (l : Text) {cs : List Node} (hbare : isBare d t cs = false)
    (ht : SteadyTarget d t) (hlink : cs.any (·.kind.isLink) = false) (prev : Char)
    {inner tail rest : Content} (hinner : RunReads false '[' cs inner (tail ++ rest))
    (htail : Laid (tailInks d t) tail) (hrest : rest.dropCut = rest) :
    NodeReads true prev (.mk (.link d t) l cs) (Content.ofText ['['] ++ inner ++ tail) rest := by
  obtain ⟨ps, ss, last, hsettles, hyields, hnodes⟩ := hinner
  obtain ⟨u, hu, hspan⟩ := @brackets_yield false true (.inr rfl) d t ht prev _ _ _ _ _ _
    hyields hsettles htail hrest
  have hlast : lastOf (.mk (.link d t) l cs) = ']' := by rw [lastOf, hbare, if_neg (by simp)]
  obtain ⟨ms, hms, hechoes⟩ := hnodes [] (by simp)
  rw [← hlast] at hspan
  rw [List.nil_append] at hms
  have hspans : ∀ acc, spanNodes acc (linkSpan false d u ss) = acc ++ [.branch (.link d u) ms] := by
    intro acc
    rw [← hms]
    rfl
  refine nodeReads_span hspan hspans ⟨rfl, rfl, fun hwhole beforeLink => ?_⟩
  obtain ⟨htitle, hall⟩ := Bool.and_eq_true_iff.mp hwhole
  obtain rfl := eq_of_whole hu htitle
  rw [Layout.flattened_other (by simp) (by simp), Node.branch, compileNode, compileNode,
    any_isLink_echoes hechoes, Layout.any_isLink_flattenedAll, hlink, compile_echoes hechoes hall]

theorem autolink_reads_back {d t : Text} (l : Text) {cs : List Node} (hbare : isBare d t cs = true)
    (hown : isBare d t [.ofText d] = true) (hchars : ∀ x ∈ d, 32 < x.toNat ∧ x ≠ '|')
    (hlink : cs.any (·.kind.isLink) = false) {linked : Bool} (prev : Char) {c rest : Content}
    (h : Laid (fixedInks ('<' :: d ++ ['>'])) c) (hrest : rest.dropCut = rest) :
    NodeReads linked prev (.mk (.link d t) l cs) c rest := by
  obtain ⟨rfl, hform⟩ : t = [] ∧ AutolinkForm d := by
    rw [isBare] at hown
    split at hown
    · rw [Bool.and_eq_true, Bool.and_eq_true, List.isEmpty_iff, Layout.isAutolink_iff] at hown
      exact ⟨hown.1.1, hown.2⟩
    · cases hown
  have hyields := autolink_yields hform (fun x hx => (hchars x hx).1)
    (fun hmem => (hchars _ hmem).2 rfl) prev h hrest
  have hlast : lastOf (.mk (.link d []) l cs) = '>' := by rw [lastOf, hbare, if_pos rfl]
  rw [← hlast] at hyields
  refine nodeReads_span (hyields.weaken linked) (fun acc => rfl) ⟨rfl, rfl, fun _ beforeLink => ?_⟩
  have hflat : isBare d [] (flattenedAll cs) = true := by rw [isBare_flattenedAll, hbare]
  have hlink' : (flattenedAll cs).any (·.kind.isLink) = false := by
    rw [Layout.any_isLink_flattenedAll, hlink]
  rw [Layout.flattened_other (by simp) (by simp), compileNode_bare hflat hlink' beforeLink l]
  exact compileNode_bare hown rfl beforeLink []

/-- A text stops at the markup of the node behind it. -/
theorem stops_before {n : Node} (hn : Compilable n) (htext : n.isText = false) {b : Bool}
    {is : List Ink} {c rest : Content} (h : Laid (nodeInks b n ++ is) c) :
    Stops n.kind.isLink (c ++ rest) := by
  obtain ⟨x, js, hinks, hx⟩ := nodeInks_begins hn htext b
  rw [hinks, List.cons_append] at h
  have hpipe : x ≠ '|' := by
    rintro rfl
    rcases hx with hx | ⟨hx, -⟩
    · exact absurd hx (by decide)
    · exact absurd hx (by decide)
  cases h with
  | fixed hs _ =>
    obtain rfl := symbol_eq hs hpipe
    exact fun s hs => ⟨x, (Option.some.inj hs).symm, hx⟩

mutual
theorem node_reads {before prev next : Char} {linked beforeLink : Bool} {c rest : Content} :
    ∀ n, Compilable n → isSteady before next n = true → Trails before prev →
      Laid (nodeInks beforeLink n) c → Meets next rest →
      (n.isText = true → Stops beforeLink rest) → (linked = true ∨ n.kind.isLink = false) →
      NodeReads linked prev n c rest
  | .mk k l cs, hn, h, hprev, hc, hrest, hstops, hlinked => by
    cases hn with
    | text =>
      rw [isSteady, Bool.and_eq_true] at h
      exact text_reads_back cs (by simpa using h.1) h.2 prev hc (hstops rfl)
    | code =>
      rw [isSteady, Bool.and_eq_true] at h
      exact code_reads_back cs (by simpa using h.1) prev hc hrest (by simpa using h.2)
    | emphasis _ hne htexts =>
      exact delimited_reads_back (.inl ⟨rfl, rfl⟩) l hne htexts h hprev hc hrest
    | strong _ hne htexts =>
      exact delimited_reads_back (.inr ⟨rfl, rfl⟩) l hne htexts h hprev hc hrest
    | image d t =>
      rw [isSteady, Bool.and_eq_true, isSteadyTarget_iff] at h
      exact image_reads_back l h.1 h.2 prev hc hrest.dropCut
    | link d t _ hlinks hcs =>
      have hlink := any_isLink_of_compilable hlinks
      obtain rfl : linked = true := by simpa [Node.kind, Kind.isLink] using hlinked
      rw [isSteady] at h
      rw [nodeInks] at hc
      cases hbare : isBare d t cs with
      | true =>
        rw [hbare, if_pos rfl] at h hc
        simp only [Bool.and_eq_true, List.all_eq_true, decide_eq_true_eq, bne_iff_ne] at h
        exact autolink_reads_back l hbare h.1 h.2 hlink prev hc hrest.dropCut
      | false =>
        rw [hbare, if_neg (by simp)] at h hc
        rw [Bool.and_eq_true, Bool.and_eq_true, isSteadyTarget_iff] at h
        obtain ⟨front, tail, rfl, hfront, htail⟩ := hc.split
        obtain ⟨mark, inner, rfl, hmark, hinner⟩ := hfront.split
        obtain rfl := laid_fixedInks hmark (by decide)
        obtain ⟨hmeets, hstop⟩ := laid_tailInks_stops htail rest
        have hrun : RunReads false '[' cs inner (tail ++ rest) := run_reads cs hcs h.2 (.inl rfl)
          hinner hmeets hstop (.inr fun k hk => by simpa using hlinks k hk)
        exact link_reads_back l hbare h.1.1 hlink prev hrun htail hrest.dropCut

/-- What a steady run is written as is read as the run. -/
theorem run_reads {before prev next : Char} {linked : Bool} {c rest : Content} :
    ∀ ns, (∀ n ∈ ns, Compilable n) → areSteady before next ns = true → Trails before prev →
      Laid (runInks ns) c → Meets next rest → Stops false rest →
      (linked = true ∨ ∀ n ∈ ns, n.kind.isLink = false) → RunReads linked prev ns c rest
  | [], _, _, _, hc, _, _, _ => by
    cases hc
    exact runReads_nil linked prev rest
  | n :: ns, hns, h, hprev, hc, hrest, hstops, hlinked => by
    obtain ⟨hsteady, hapart, hmore⟩ := areSteady_cons.mp h
    obtain ⟨front, back, rfl, hfront, hback⟩ := hc.split
    have hstop : n.isText = true → Stops (ns.head?.any (·.kind.isLink)) (back ++ rest) := by
      intro htext
      cases ns with
      | nil =>
        cases hback
        exact hstops
      | cons k ks => exact stops_before (hns k (by simp)) (hapart htext k rfl) hback
    have hone : NodeReads linked prev n front (back ++ rest) := node_reads n (hns n (by simp))
      hsteady hprev hfront (hback.meets hrest) hstop (hlinked.imp id fun hall => hall n (by simp))
    refine hone.cons hapart fun last hlast => ?_
    exact run_reads ns (fun k hk => hns k (by simp [hk])) hmore hlast hback hrest hstops
      (hlinked.imp id fun hall k hk => hall k (by simp [hk]))
end

/-- A run that is read back wherever its lines end. No gap of it goes with another one or with the
end of a line. -/
@[mk_iff] structure SteadyRun (cs : List Node) : Prop where
  steady : areSteady '\n' '\n' cs = true
  evened : Evened (runInks cs)
  ends : ∀ i ∈ (runInks cs).getLast?, Text.isSpacing i.last = false

instance (cs : List Node) : Decidable (SteadyRun cs) :=
  decidable_of_iff _ (steadyRun_iff cs).symm

theorem Laid.trimEnd {is : List Ink} {c : Content} (h : Laid is c)
    (hends : ∀ i ∈ is.getLast?, Text.isSpacing i.last = false) : c.trimEnd = c := by
  rcases is.eq_nil_or_concat with rfl | ⟨front, i, rfl⟩
  · cases h
    rfl
  · rw [List.concat_eq_append] at h hends
    obtain ⟨a, b, rfl, -, hb⟩ := h.split
    have hi : Text.isSpacing i.last = false := hends i List.getLast?_concat
    obtain ⟨u, s, rfl, hs⟩ : ∃ u s, b = u ++ [s] ∧ s.isSpacing = false := by
      cases hb with
      | plain hx hnil =>
        cases hnil
        exact ⟨[], _, rfl, symbol_not_spacing hx hi⟩
      | slashed _ hnil =>
        cases hnil
        exact ⟨[_], _, rfl, hi⟩
      | shielded hnil =>
        cases hnil
        exact ⟨[_], _, rfl, hi⟩
      | fixed hx hnil =>
        cases hnil
        exact ⟨[], _, rfl, symbol_not_spacing hx hi⟩
      | space hnil => cases hi
      | line _ hnil => cases hi
    rw [← List.append_assoc, Content.trimEnd, List.reverse_append, List.reverse_singleton,
      List.singleton_append, List.dropWhile_cons_of_neg (by simp [hs]), List.reverse_cons,
      List.reverse_reverse]

theorem stops_nil (bang : Bool) : Stops bang [] := by
  intro s hs
  cases hs

theorem contentNodes_laid {cs : List Node} (hcs : ∀ c ∈ cs, Compilable c)
    (h : areSteady '\n' '\n' cs = true) {content : Content} (hc : Laid (runInks cs) content) :
    List.Forall₂ Echoes (contentNodes content) cs := by
  have hrun : RunReads true '\n' cs content [] :=
    run_reads cs hcs h (.inl rfl) hc .nil (stops_nil false) (.inl rfl)
  obtain ⟨ps, ss, last, hsettles, hyields, hnodes⟩ := hrun
  obtain ⟨ms, hms, hechoes⟩ := hnodes [] (by simp)
  rw [List.nil_append] at hms
  rwa [contentNodes, hyields.plainSpans_eq hsettles, hms]

theorem inlineTokens_echoes {ms ns : List Node} (h : List.Forall₂ Echoes ms ns)
    (hwhole : allWholeTitles ms = true) : inlineTokens ms = inlineTokens ns := by
  rw [← Layout.inlineTokens_flattenedAll ns, inlineTokens, inlineTokens, compile_echoes h hwhole]

/-- The lines that a steady run is filled to are read as a run with the same tokens, as long as none
of them ends within a title. -/
theorem SteadyRun.reads_back {cs : List Node} (h : SteadyRun cs) (hcs : ∀ c ∈ cs, Compilable c)
    {cols : Nat} {margin : Layout.Margin} {content : Content}
    (hlines : Spreads ((Layout.cut cols margin (Layout.runTokens cs)).map Layout.lineBody) content)
    (hwhole : allWholeTitles (contentNodes content.trimEnd) = true) :
    inlineTokens (contentNodes content.trimEnd) = inlineTokens cs := by
  have hcompile := compile_steady cs hcs h.steady
  have htokens : Layout.runTokens cs = Layout.tokens (inkMarks (runInks cs)) := by
    rw [Layout.runTokens, ← Layout.inlineTokens_flattenedAll, inlineTokens, hcompile]
    rfl
  rw [htokens] at hlines
  have hlaid := laid_cut h.evened (led_runInks cs hcs h.steady) cols margin hlines
  rw [hlaid.trimEnd h.ends] at hwhole ⊢
  exact inlineTokens_echoes (contentNodes_laid hcs h.steady hlaid) hwhole

end CanonMark.Markdown
