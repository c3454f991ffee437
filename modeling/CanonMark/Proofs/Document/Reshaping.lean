import CanonMark.Proofs.Markdown.Trees
import CanonMark.Proofs.Runs

/-! # Trees without a stack

A sequence of events, made balanced, is the written form of exactly one forest of passages. The tree
that the stack of open nodes builds is told here from that forest alone, from the inside out. What
goes to the literal of a node is no child of it, so it parts no texts there.
-/
namespace CanonMark

open OpenNodes (run)
open Markdown (addedText addedText_of_not_text addedText_concat addTextTo_eq run_append run_text
  run_enclosed bottom bottom_run)

inductive Leaf where
  | text (content : Text)
  | softBreak
  | code (content : Text)
  | html (content : Text)
  | inlineHtml (content : Text)
  | hardBreak
  | rule
  | extension (name content : Text)
  deriving DecidableEq, Repr

inductive Passage where
  | leaf (l : Leaf)
  | enclosed (tag : Tag) (inner : List Passage)
  deriving Repr

abbrev Forest := List Passage

def Leaf.event : Leaf → Event
  | .text t => .text t
  | .softBreak => .softBreak
  | .code t => .code t
  | .html t => .html t
  | .inlineHtml t => .inlineHtml t
  | .hardBreak => .hardBreak
  | .rule => .rule
  | .extension name t => .extension name t

mutual
def Passage.events : Passage → List Event
  | .leaf l => [l.event]
  | .enclosed tag inner => Markdown.enclosed tag (Forest.events inner)

def Forest.events : List Passage → List Event
  | [] => []
  | p :: ps => p.events ++ Forest.events ps
end

/-- Drops what closes nothing and closes at the end what is still open; `depth` counts what is open
so far. -/
def balance : Nat → List Event → List Event
  | depth, [] => List.replicate depth .finish
  | depth, .start tag :: es => .start tag :: balance (depth + 1) es
  | 0, .finish :: es => balance 0 es
  | depth + 1, .finish :: es => .finish :: balance depth es
  | depth, e :: es => e :: balance depth es

def mergeTexts (ns : List Node) : List Node :=
  replaceRuns Node.isText (fun texts => .ofText (texts.flatMap Node.literal)) ns

def Kind.arrange : Kind → List Node → List Node
  | .item, ns => replaceRuns (·.kind.isInline) (.branch .paragraph) ns
  | .tableHead, ns => if ∀ n ∈ ns, n.kind = .tableCell then [.branch .tableRow ns] else ns
  | .table _, ns =>
    ns.filter (·.kind != .tableRow) ++ [.branch .tableBody (ns.filter (·.kind == .tableRow))]
  | _, ns => ns

/-- What a passage adds to the literal of the node directly around it: text to that of a code block,
and HTML to that of an HTML block. -/
def Passage.absorbed? (around : Kind) : Passage → Option Text
  | .leaf (.text t) => if around.isCodeBlock then some t else none
  | .leaf .softBreak => if around.isCodeBlock then some ['\n'] else none
  | .leaf (.html t) => if around = .htmlBlock then some t else none
  | _ => none

def Leaf.node : Leaf → Node
  | .text t => .ofText t
  | .softBreak => .ofText ['\n']
  | .code t => .leaf .code t
  | .html t => .leaf .htmlBlock t
  | .inlineHtml t => .leaf .htmlSpan t
  | .hardBreak => .branch .hardBreak []
  | .rule => .branch .thematicBreak []
  | .extension name t => .leaf (.extension name) t

def Forest.literal (around : Kind) (ps : Forest) : Text :=
  (ps.filterMap (Passage.absorbed? around)).flatten

mutual
def Passage.node : Passage → Node
  | .leaf l => l.node
  | .enclosed tag inner =>
    .mk tag.kind (Forest.literal tag.kind inner)
      (tag.kind.arrange (mergeTexts (Forest.nodes tag.kind inner)))

/-- The nodes of the passages that do not go to the literal of the node around them. -/
def Forest.nodes (around : Kind) : List Passage → List Node
  | [] => []
  | p :: ps =>
    if (p.absorbed? around).isSome then Forest.nodes around ps
    else p.node :: Forest.nodes around ps
end

def Forest.document (ps : Forest) : Node :=
  .branch .document (mergeTexts (Forest.nodes .document ps))

theorem paragraphsFrom_eq (done ns : List Node) (h : ∀ n ∈ done, n.kind.isInline = true) :
    paragraphsFrom done ns = replaceRuns (·.kind.isInline) (.branch .paragraph) (done ++ ns) := by
  induction ns generalizing done with
  | nil =>
    rw [paragraphsFrom, List.append_nil]
    split
    · next hempty => rw [List.isEmpty_iff.mp hempty, replaceRuns_nil]
    · next hne => rw [replaceRuns_run (fun he => hne (List.isEmpty_iff.mpr he)) h]
  | cons n ns ih =>
    rw [paragraphsFrom]
    split
    · next hn =>
      rw [ih (done ++ [n]), List.append_assoc, List.singleton_append]
      intro m hm
      rcases List.mem_append.mp hm with hm | hm
      · exact h m hm
      · rw [List.mem_singleton.mp hm, hn]
    · next hn =>
      have hblock : n.kind.isInline = false := by simpa using hn
      have hcons := replaceRuns_cons (p := fun m : Node => m.kind.isInline)
        (f := .branch .paragraph) hblock ns
      split
      · next hempty =>
        rw [List.isEmpty_iff.mp hempty, List.nil_append, hcons, ih [] (by simp), List.nil_append]
      · next hne =>
        rw [replaceRuns_append (by simp [hblock]), hcons,
          replaceRuns_run (fun he => hne (List.isEmpty_iff.mpr he)) h, ih [] (by simp),
          List.nil_append, List.singleton_append]

theorem wrapInlineRuns_eq (cs : List Node) :
    wrapInlineRuns cs = replaceRuns (·.kind.isInline) (.branch .paragraph) cs :=
  paragraphsFrom_eq [] cs (by simp)

theorem wrapInlineRuns_run {ns : List Node} (h : ∀ n ∈ ns, n.kind.isInline = true) (hne : ns ≠ [])
    (rest : List Node) (hrest : ∀ n ∈ rest, n.kind.isInline = false) :
    wrapInlineRuns (ns ++ rest) = .branch .paragraph ns :: rest := by
  have hfirst : ∀ n ∈ rest.head?, n.kind.isInline = false :=
    fun n hn => hrest n (List.mem_of_mem_head? hn)
  rw [wrapInlineRuns_eq, replaceRuns_front hne h hfirst, replaceRuns_of_none hrest]

theorem settle_eq (k : Kind) (l : Text) (cs : List Node) :
    (Node.mk k l cs).settle = .mk k l (k.arrange cs) := by
  cases k with
  | item => exact congrArg (Node.mk .item l) (wrapInlineRuns_eq cs)
  | tableHead =>
    have hall : cs.all (·.kind == .tableCell) = true ↔ ∀ n ∈ cs, n.kind = .tableCell := by simp
    simp only [Node.settle, Kind.arrange, hall]
    split <;> rfl
  | _ => rfl

theorem exists_last_texts (ns : List Node) : ∃ before texts, ns = before ++ texts ∧
    (∀ n ∈ texts, n.isText = true) ∧ ∀ n ∈ before.getLast?, n.isText = false := by
  induction ns using List.reverseRecOn with
  | nil => exact ⟨[], [], rfl, by simp, by simp⟩
  | append_singleton ns n ih =>
    by_cases hn : n.isText = true
    · obtain ⟨before, texts, rfl, htexts, hbefore⟩ := ih
      refine ⟨before, texts ++ [n], List.append_assoc _ _ _, ?_, hbefore⟩
      intro m hm
      rcases List.mem_append.mp hm with hm | hm
      · exact htexts m hm
      · rw [List.mem_singleton.mp hm, hn]
    · refine ⟨ns ++ [n], [], (List.append_nil _).symm, by simp, ?_⟩
      intro m hm
      rw [List.getLast?_concat] at hm
      rw [← Option.some.inj hm]
      exact Bool.eq_false_iff.mpr hn

theorem mergeTexts_not_text {ns : List Node} (h : ∀ n ∈ ns.getLast?, n.isText = false) :
    ∀ n ∈ (mergeTexts ns).getLast?, n.isText = false := by
  obtain rfl | ⟨before, last, rfl⟩ := List.eq_nil_or_concat' ns
  · exact h
  · have hlast : last.isText = false := h last List.getLast?_concat
    rw [mergeTexts, replaceRuns_concat hlast, List.getLast?_concat]
    intro n hn
    rwa [← Option.some.inj hn]

theorem mergeTexts_concat {n : Node} (h : n.isText = false) (ns : List Node) :
    mergeTexts (ns ++ [n]) = mergeTexts ns ++ [n] :=
  replaceRuns_concat h ns

theorem mergeTexts_text (ns : List Node) (t : Text) :
    mergeTexts (ns ++ [.ofText t]) = addedText (mergeTexts ns) t := by
  obtain ⟨before, texts, rfl, htexts, hbefore⟩ := exists_last_texts ns
  have hcut : ∀ ms : List Node, mergeTexts (before ++ ms) = mergeTexts before ++ mergeTexts ms := by
    intro ms
    refine replaceRuns_append ?_
    intro a ha b _
    rw [hbefore a ha, Bool.false_and]
  have hmore : ∀ m ∈ texts ++ [.ofText t], m.isText = true := by
    intro m hm
    rcases List.mem_append.mp hm with hm | hm
    · exact htexts m hm
    · rw [List.mem_singleton.mp hm]
      rfl
  have hone : mergeTexts (texts ++ [.ofText t]) =
      [.ofText ((texts ++ [Node.ofText t]).flatMap Node.literal)] :=
    replaceRuns_run (by simp) hmore
  rw [List.append_assoc, hcut, hcut, hone, List.flatMap_append]
  by_cases hnone : texts = []
  · subst hnone
    rw [mergeTexts.eq_1 [], replaceRuns_nil, List.append_nil,
      addedText_of_not_text (mergeTexts_not_text hbefore)]
    simp [Node.ofText, Node.leaf, Node.literal]
  · have hrun : mergeTexts texts = [.ofText (texts.flatMap Node.literal)] :=
      replaceRuns_run hnone htexts
    rw [hrun, addedText_concat rfl]
    simp [Node.ofText, Node.leaf, Node.literal, Node.addLiteral]

/-- A node of this kind with the passages that stand in it so far. -/
def Forest.unfinished (k : Kind) (ps : Forest) : Node :=
  .mk k (Forest.literal k ps) (mergeTexts (Forest.nodes k ps))

theorem literal_concat (k : Kind) (ps : Forest) (p : Passage) :
    Forest.literal k (ps ++ [p]) = Forest.literal k ps ++ (p.absorbed? k).getD [] := by
  rw [Forest.literal, List.filterMap_append, List.flatten_append]
  cases h : p.absorbed? k <;> simp [Forest.literal, h]

theorem nodes_concat (k : Kind) (ps : Forest) (p : Passage) :
    Forest.nodes k (ps ++ [p]) =
      Forest.nodes k ps ++ if (p.absorbed? k).isSome then [] else [p.node] := by
  induction ps with
  | nil => rfl
  | cons q ps ih =>
    rw [List.cons_append, Forest.nodes, Forest.nodes, ih]
    split <;> rfl

theorem unfinished_absorbed {k : Kind} {p : Passage} {t : Text} (h : p.absorbed? k = some t)
    (ps : Forest) :
    Forest.unfinished k (ps ++ [p]) = (Forest.unfinished k ps).addLiteral t := by
  simp [Forest.unfinished, literal_concat, nodes_concat, h, Node.addLiteral]

theorem unfinished_child {k : Kind} {p : Passage} (h : p.absorbed? k = none)
    (htext : p.node.isText = false) (ps : Forest) :
    Forest.unfinished k (ps ++ [p]) = (Forest.unfinished k ps).addChild p.node := by
  simp [Forest.unfinished, literal_concat, nodes_concat, h, Node.addChild,
    mergeTexts_concat htext]

theorem unfinished_text {k : Kind} (p : Passage) {t : Text} (h : p.absorbed? k = none)
    (hnode : p.node = .ofText t) (ps : Forest) : Forest.unfinished k (ps ++ [p]) =
      .mk k (Forest.literal k ps) (addedText (mergeTexts (Forest.nodes k ps)) t) := by
  simp [Forest.unfinished, literal_concat, nodes_concat, h, hnode, mergeTexts_text]

theorem step_leaf (l : Leaf) (k : Kind) (ps : Forest) (rest : List Node) :
    OpenNodes.step (Forest.unfinished k ps :: rest) l.event =
      Forest.unfinished k (ps ++ [.leaf l]) :: rest := by
  have htext : ∀ (p : Passage) (t : Text), p.node = .ofText t →
      p.absorbed? k = (if k.isCodeBlock then some t else none) →
      OpenNodes.addText t (Forest.unfinished k ps :: rest) =
        Forest.unfinished k (ps ++ [p]) :: rest := by
    intro p t hnode habsorbed
    by_cases hk : k.isCodeBlock = true
    · rw [if_pos hk] at habsorbed
      rw [unfinished_absorbed habsorbed]
      rw [OpenNodes.addText, Forest.unfinished, addTextTo_eq, if_pos hk]
      rfl
    · rw [if_neg hk] at habsorbed
      rw [unfinished_text p habsorbed hnode]
      exact run_text (Bool.eq_false_iff.mpr hk) _ t _ rest
  cases l with
  | text t => exact htext (.leaf (.text t)) t rfl rfl
  | softBreak => exact htext (.leaf .softBreak) ['\n'] rfl rfl
  | html t =>
    by_cases hk : k = .htmlBlock
    · subst hk
      rw [unfinished_absorbed (t := t) rfl]
      rfl
    · have habsorbed : (Passage.leaf (.html t)).absorbed? k = none := if_neg hk
      have hother : ¬(Forest.unfinished k ps).kind == .htmlBlock := fun he => hk (eq_of_beq he)
      rw [unfinished_child habsorbed rfl]
      exact if_neg hother
  | _ =>
    rw [unfinished_child rfl rfl]
    rfl

theorem kind_ne_text (tag : Tag) : tag.kind ≠ .text := by
  cases tag <;> simp [Tag.kind]

mutual
/-- The events of a passage add it to the innermost node, whatever stands in it or around it. -/
theorem run_passage (p : Passage) (k : Kind) (ps : Forest) (rest : List Node) :
    run p.events (Forest.unfinished k ps :: rest) = Forest.unfinished k (ps ++ [p]) :: rest := by
  cases p with
  | leaf l => exact step_leaf l k ps rest
  | enclosed tag inner =>
    have hinner : ∀ rest, run (Forest.events inner) (.branch tag.kind [] :: rest) =
        Forest.unfinished tag.kind inner :: rest :=
      fun rest => run_forest inner tag.kind [] rest
    have hsettle : (Forest.unfinished tag.kind inner).settle = (Passage.enclosed tag inner).node :=
      settle_eq _ _ _
    have htext : (Passage.enclosed tag inner).node.isText = false :=
      beq_eq_false_iff_ne.mpr (kind_ne_text tag)
    rw [Passage.events, run_enclosed tag hinner, hsettle, unfinished_child rfl htext]

theorem run_forest (qs : Forest) (k : Kind) (ps : Forest) (rest : List Node) :
    run (Forest.events qs) (Forest.unfinished k ps :: rest) =
      Forest.unfinished k (ps ++ qs) :: rest := by
  cases qs with
  | nil =>
    rw [List.append_nil]
    rfl
  | cons q qs =>
    rw [Forest.events, run_append, run_passage q, run_forest qs, List.append_assoc,
      List.singleton_append]
end

theorem literal_document (ps : Forest) : Forest.literal .document ps = [] := by
  have hnone : ∀ p ∈ ps, Passage.absorbed? .document p = none := by
    intro p _
    cases p with
    | leaf l => cases l <;> rfl
    | enclosed tag inner => rfl
  rw [Forest.literal, List.filterMap_eq_nil_iff.mpr hnone, List.flatten_nil]

theorem ofEvents_events (ps : Forest) : Node.ofEvents (Forest.events ps) = ps.document := by
  have hrun := run_forest ps .document [] []
  have hinitial : OpenNodes.initial = [Forest.unfinished .document []] := rfl
  rw [Node.ofEvents, hinitial, hrun, List.nil_append, Forest.unfinished, literal_document]
  rfl

theorem event_cases (e : Event) :
    (∃ tag, e = .start tag) ∨ e = .finish ∨ ∃ l : Leaf, e = l.event := by
  cases e with
  | start tag => exact .inl ⟨tag, rfl⟩
  | finish => exact .inr (.inl rfl)
  | text t => exact .inr (.inr ⟨.text t, rfl⟩)
  | softBreak => exact .inr (.inr ⟨.softBreak, rfl⟩)
  | code t => exact .inr (.inr ⟨.code t, rfl⟩)
  | html t => exact .inr (.inr ⟨.html t, rfl⟩)
  | inlineHtml t => exact .inr (.inr ⟨.inlineHtml t, rfl⟩)
  | hardBreak => exact .inr (.inr ⟨.hardBreak, rfl⟩)
  | rule => exact .inr (.inr ⟨.rule, rfl⟩)
  | extension name t => exact .inr (.inr ⟨.extension name t, rfl⟩)

theorem balance_leaf (depth : Nat) (l : Leaf) (es : List Event) :
    balance depth (l.event :: es) = l.event :: balance depth es := by
  cases l <;> cases depth <;> rfl

theorem length_step_leaf (l : Leaf) (stack : OpenNodes) :
    (stack.step l.event).length = stack.length := by
  cases stack with
  | nil => cases l <;> rfl
  | cons top rest =>
    cases l with
    | html t =>
      change (if top.kind == .htmlBlock then _ else _ : List Node).length = _
      split <;> rfl
    | _ => rfl

theorem run_finishes (depth : Nat) {stack : OpenNodes} (h : stack.length = depth + 1) :
    run (List.replicate depth .finish) stack = [stack.finish] := by
  induction depth generalizing stack with
  | zero =>
    match stack, h with
    | [root], _ => rfl
  | succ depth ih =>
    match stack, h with
    | top :: parent :: rest, h =>
      rw [List.replicate_succ]
      exact ih (Nat.succ.inj h)

theorem finish_run_balance (es : List Event) (depth : Nat) {stack : OpenNodes}
    (h : stack.length = depth + 1) : (run (balance depth es) stack).finish =
      (run es stack).finish := by
  induction es generalizing depth stack with
  | nil =>
    rw [balance, run_finishes depth h]
    rfl
  | cons e es ih =>
    obtain ⟨tag, rfl⟩ | rfl | ⟨l, rfl⟩ := event_cases e
    · exact ih (depth + 1) (by rw [← h]; rfl)
    · cases depth with
      | zero =>
        match stack, h with
        | [root], _ => exact ih 0 rfl
      | succ depth =>
        match stack, h with
        | top :: parent :: rest, h => exact ih depth (Nat.succ.inj h)
    · rw [balance_leaf]
      exact ih depth (by rw [length_step_leaf, h])

theorem ofEvents_balance (es : List Event) : Node.ofEvents (balance 0 es) = Node.ofEvents es :=
  finish_run_balance es 0 rfl

/-- Forests behind each other, each behind the end of what holds the one before. -/
def closings (fs : List Forest) : List Event := fs.flatMap fun f => .finish :: Forest.events f

/-- Balanced events close `depth` open nodes, and between these ends stand whole passages. -/
theorem exists_forests (es : List Event) (depth : Nat) : ∃ (f : Forest) (fs : List Forest),
    fs.length = depth ∧ balance depth es = Forest.events f ++ closings fs := by
  induction es generalizing depth with
  | nil =>
    refine ⟨[], List.replicate depth [], List.length_replicate, ?_⟩
    rw [closings, List.flatMap_replicate]
    simp [balance, Forest.events]
  | cons e es ih =>
    obtain ⟨tag, rfl⟩ | rfl | ⟨l, rfl⟩ := event_cases e
    · obtain ⟨inner, fs, hlength, hfs⟩ := ih (depth + 1)
      match fs, hlength with
      | f :: fs, hlength =>
        refine ⟨.enclosed tag inner :: f, fs, Nat.succ.inj hlength, ?_⟩
        simp [balance, hfs, closings, Forest.events, Passage.events, Markdown.enclosed]
    · cases depth with
      | zero => exact ih 0
      | succ depth =>
        obtain ⟨f, fs, hlength, hfs⟩ := ih depth
        refine ⟨[], f :: fs, congrArg Nat.succ hlength, ?_⟩
        rw [balance, hfs]
        rfl
    · obtain ⟨f, fs, hlength, hfs⟩ := ih depth
      refine ⟨.leaf l :: f, fs, hlength, ?_⟩
      rw [balance_leaf, hfs]
      rfl

theorem exists_forest (es : List Event) : ∃ f : Forest, Forest.events f = balance 0 es := by
  obtain ⟨f, fs, hlength, hfs⟩ := exists_forests es 0
  rw [List.length_eq_zero_iff.mp hlength] at hfs
  exact ⟨f, by simpa [closings] using hfs.symm⟩

theorem event_injective {l m : Leaf} (h : l.event = m.event) : l = m := by
  cases l <;> cases m <;> simp_all [Leaf.event]

theorem event_ne_start (l : Leaf) (tag : Tag) : l.event ≠ .start tag := by
  cases l <;> simp [Leaf.event]

theorem event_ne_finish (l : Leaf) : l.event ≠ .finish := by
  cases l <;> simp [Leaf.event]

theorem events_head (p : Passage) : ∃ e es, e ≠ .finish ∧ p.events = e :: es := by
  cases p with
  | leaf l => exact ⟨l.event, [], event_ne_finish l, rfl⟩
  | enclosed tag inner => exact ⟨.start tag, _, by simp, rfl⟩

mutual
/-- The first passage of a sequence of events is fixed by it. -/
theorem passage_unique : ∀ (p q : Passage) {r s : List Event},
    p.events ++ r = q.events ++ s → p = q ∧ r = s
  | .leaf l, .leaf m, r, s, h => by
    obtain ⟨he, hrest⟩ := List.cons.inj h
    exact ⟨congrArg Passage.leaf (event_injective he), hrest⟩
  | .leaf l, .enclosed tag inner, r, s, h => absurd (List.cons.inj h).1 (event_ne_start l tag)
  | .enclosed tag inner, .leaf m, r, s, h =>
    absurd (List.cons.inj h).1.symm (event_ne_start m tag)
  | .enclosed tag inner, .enclosed tag' inner', r, s, h => by
    obtain ⟨htag, hrest⟩ := List.cons.inj h
    have hends : Forest.events inner ++ .finish :: r = Forest.events inner' ++ .finish :: s := by
      simpa using hrest
    obtain ⟨rfl, hr⟩ := forest_unique inner inner' (by simp) (by simp) hends
    obtain rfl := Event.start.inj htag
    exact ⟨rfl, (List.cons.inj hr).2⟩

theorem forest_unique : ∀ (f g : Forest) {r s : List Event}, (∀ e ∈ r.head?, e = .finish) →
    (∀ e ∈ s.head?, e = .finish) → Forest.events f ++ r = Forest.events g ++ s → f = g ∧ r = s
  | [], [], r, s, _, _, h => ⟨rfl, h⟩
  | [], q :: g, r, s, hr, _, h => by
    obtain ⟨e, es, he, hq⟩ := events_head q
    rw [Forest.events, Forest.events, hq] at h
    exact absurd (hr e (by rw [show r = _ from h]; rfl)) he
  | p :: f, [], r, s, _, hs, h => by
    obtain ⟨e, es, he, hp⟩ := events_head p
    rw [Forest.events, Forest.events, hp] at h
    exact absurd (hs e (by rw [show s = _ from h.symm]; rfl)) he
  | p :: f, q :: g, r, s, hr, hs, h => by
    rw [Forest.events, Forest.events, List.append_assoc, List.append_assoc] at h
    obtain ⟨rfl, hrest⟩ := passage_unique p q h
    obtain ⟨rfl, hends⟩ := forest_unique f g hr hs hrest
    exact ⟨rfl, hends⟩
end

theorem events_injective {f g : Forest} (h : Forest.events f = Forest.events g) : f = g :=
  (forest_unique f g (r := []) (s := []) (by simp) (by simp) (by rw [h])).1

theorem bottom_eq_getLast? (stack : OpenNodes) :
    bottom stack = (stack.getLast?).map Node.kind := by
  fun_induction bottom stack with
  | case1 => rfl
  | case2 n => rfl
  | case3 n m rest ih => rw [ih, List.getLast?_cons_cons]

/-- After each event the document lies at the bottom of the stack. Made balanced, the events are
those of exactly one forest, and what they give is the document of that forest. -/
theorem ofEvents_eq_document (es : List Event) :
    (∀ n, ((OpenNodes.initial.run (es.take n)).getLast?).map Node.kind = some .document) ∧
      (∃! f : Forest, Forest.events f = balance 0 es) ∧
      ∃ f : Forest, Forest.events f = balance 0 es ∧ Node.ofEvents es = f.document := by
  obtain ⟨f, hf⟩ := exists_forest es
  refine ⟨?_, ⟨f, hf, ?_⟩, f, hf, ?_⟩
  · intro n
    rw [← bottom_eq_getLast?]
    exact bottom_run rfl (es.take n)
  · intro g hg
    exact events_injective (hg.trans hf.symm)
  · rw [← ofEvents_balance, ← hf, ofEvents_events]

-- An end too many, two that are missing, and text on both sides of what an HTML block takes in.
example : Node.ofEvents [.finish, .start .item, .text ['a'], .softBreak, .start .htmlBlock,
      .text ['b'], .html ['c'], .text ['d']] =
    .branch .document [.branch .item [.branch .paragraph [.ofText ['a', '\n']],
      .mk .htmlBlock ['c'] [.ofText ['b', 'd']]]] := by
  decide

end CanonMark
