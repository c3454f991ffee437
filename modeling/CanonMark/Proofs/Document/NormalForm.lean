import CanonMark.Proofs.Document.Reshaping
import Mathlib.Logic.Relation

/-! # Trees in normal form

Texts are merged when they arrive, items are reshaped when they are complete, and a table moves its
rows away from between its other children. Main statement: where no text stands directly in a
table, the tree holds no two texts side by side, and each item holds what it held when it was
completed, with its runs of inline nodes in paragraphs.
-/
namespace CanonMark

open OpenNodes (run)
open Markdown (addedText addedText_cases mem_addedText addTextTo_eq addChild_kind run_append bottom
  bottom_run)

def Node.HasChild (n c : Node) : Prop := c ∈ n.children

def Node.Contains : (n m : Node) → Prop := Relation.ReflTransGen Node.HasChild

def Node.Everywhere (P : Node → Prop) (n : Node) : Prop := ∀ m, n.Contains m → P m

theorem everywhere_iff {P : Node → Prop} {n : Node} :
    n.Everywhere P ↔ P n ∧ ∀ c ∈ n.children, c.Everywhere P := by
  constructor
  · intro h
    exact ⟨h n .refl, fun c hc m hm => h m (.head hc hm)⟩
  · rintro ⟨hroot, hchildren⟩ m hm
    rcases Relation.ReflTransGen.cases_head hm with rfl | ⟨c, hc, hm⟩
    · exact hroot
    · exact hchildren c hc m hm

theorem Node.Everywhere.mono {P Q : Node → Prop} (hPQ : ∀ m, P m → Q m) {n : Node}
    (h : n.Everywhere P) : n.Everywhere Q :=
  fun m hm => hPQ m (h m hm)

def TextsApart (ns : List Node) : Prop :=
  ns.IsChain fun a b => ¬(a.isText = true ∧ b.isText = true)

theorem textsApart_of_none {ns : List Node} (h : ∀ n ∈ ns, n.isText = false) : TextsApart ns := by
  refine (List.pairwise_of_forall_mem_list ?_).isChain
  rintro a ha b - ⟨htext, -⟩
  rw [h a ha] at htext
  cases htext

theorem TextsApart.concat {ns : List Node} (h : TextsApart ns) {n : Node}
    (hn : ∀ last ∈ ns.getLast?, ¬(last.isText = true ∧ n.isText = true)) :
    TextsApart (ns ++ [n]) := by
  refine List.isChain_append.mpr ⟨h, .singleton n, ?_⟩
  intro last hlast m hm
  rw [← Option.some.inj hm]
  exact hn last hlast

theorem isText_addLiteral (n : Node) (t : Text) : (n.addLiteral t).isText = n.isText := by
  obtain ⟨k, l, cs⟩ := n
  rfl

theorem TextsApart.addedText {cs : List Node} (h : TextsApart cs) (t : Text) :
    TextsApart (addedText cs t) := by
  obtain ⟨hlast, hadded⟩ | ⟨before, last, hlast, rfl, hadded⟩ := addedText_cases cs t
  · rw [hadded]
    apply h.concat
    rintro m hm ⟨htext, -⟩
    rw [hlast m hm] at htext
    cases htext
  · rw [hadded]
    obtain ⟨hbefore, -, hmeet⟩ := List.isChain_append.mp h
    apply TextsApart.concat hbefore
    intro m hm
    rw [isText_addLiteral]
    exact hmeet m hm last rfl

/-- One of the events completes a node, which stands open as `n` until then. -/
def Completed (es : List Event) (n : Node) : Prop :=
  ∃ before after outer, es = before ++ .finish :: after ∧
    OpenNodes.initial.run before = n :: outer ∧ outer ≠ []

theorem Completed.concat {es : List Event} {n : Node} (h : Completed es n) (e : Event) :
    Completed (es ++ [e]) n := by
  obtain ⟨before, after, outer, rfl, hopen, houter⟩ := h
  exact ⟨before, after ++ [e], outer, by simp, hopen, houter⟩

/-- What holds of a node that is complete once these events are read. -/
structure Normal (es : List Event) (n : Node) : Prop where
  texts : TextsApart n.children
  item : n.kind = .item → ∃ l cs, Completed es (.mk .item l cs) ∧
    n = .mk .item l (wrapInlineRuns cs)

theorem Normal.concat {es : List Event} {n : Node} (h : Normal es n) (e : Event) :
    Normal (es ++ [e]) n := by
  refine ⟨h.texts, ?_⟩
  intro hitem
  obtain ⟨l, cs, hcompleted, hn⟩ := h.item hitem
  exact ⟨l, cs, hcompleted.concat e, hn⟩

theorem everywhere_normal {es : List Event} {n : Node} (hkind : n.kind ≠ .item)
    (htexts : TextsApart n.children) (hchildren : ∀ c ∈ n.children, c.Everywhere (Normal es)) :
    n.Everywhere (Normal es) :=
  everywhere_iff.mpr ⟨⟨htexts, fun hitem => absurd hitem hkind⟩, hchildren⟩

theorem everywhere_normal_leaf {es : List Event} {n : Node} (hkind : n.kind ≠ .item)
    (hchildren : n.children = []) : n.Everywhere (Normal es) :=
  everywhere_normal hkind (by rw [hchildren]; exact .nil) (by simp [hchildren])

theorem everywhere_normal_addLiteral {es : List Event} {n : Node} (htext : n.isText = true)
    (h : n.Everywhere (Normal es)) (t : Text) : (n.addLiteral t).Everywhere (Normal es) := by
  obtain ⟨hroot, hchildren⟩ := everywhere_iff.mp h
  obtain ⟨k, l, cs⟩ := n
  obtain rfl : k = .text := eq_of_beq htext
  exact everywhere_normal nofun hroot.texts hchildren

def Kind.isTable : Kind → Bool
  | .table _ => true
  | _ => false

/-- What holds of an open node: its children are complete, and a table has no text among them. -/
structure Growing (es : List Event) (n : Node) : Prop where
  texts : TextsApart n.children
  below : ∀ c ∈ n.children, c.Everywhere (Normal es)
  table : n.kind.isTable = true → ∀ c ∈ n.children, c.isText = false

theorem growing_branch (es : List Event) (k : Kind) : Growing es (.branch k []) :=
  ⟨.nil, by simp [Node.branch, Node.children], by simp [Node.branch, Node.children]⟩

theorem Growing.concat {es : List Event} {n : Node} (h : Growing es n) (e : Event) :
    Growing (es ++ [e]) n :=
  ⟨h.texts, fun c hc => (h.below c hc).mono fun _ hm => hm.concat e, h.table⟩

theorem Growing.addLiteral {es : List Event} {n : Node} (h : Growing es n) (t : Text) :
    Growing es (n.addLiteral t) := by
  obtain ⟨k, l, cs⟩ := n
  exact ⟨h.texts, h.below, h.table⟩

theorem Growing.addChild {es : List Event} {n c : Node} (h : Growing es n)
    (hc : c.Everywhere (Normal es)) (htext : c.isText = false) : Growing es (n.addChild c) := by
  obtain ⟨k, l, cs⟩ := n
  have happart : ∀ last ∈ cs.getLast?, ¬(last.isText = true ∧ c.isText = true) := by
    rintro last - ⟨-, hother⟩
    rw [htext] at hother
    cases hother
  constructor
  · exact h.texts.concat happart
  · intro d hd
    rcases List.mem_append.mp hd with hd | hd
    · exact h.below d hd
    · rwa [List.mem_singleton.mp hd]
  · intro htable d hd
    rcases List.mem_append.mp hd with hd | hd
    · exact h.table htable d hd
    · rwa [List.mem_singleton.mp hd]

theorem Growing.addTextTo {es : List Event} {n : Node} (h : Growing es n)
    (htable : n.kind.isTable = false) (t : Text) : Growing es (OpenNodes.addTextTo t n) := by
  obtain ⟨k, l, cs⟩ := n
  rw [addTextTo_eq]
  split
  · exact h.addLiteral t
  constructor
  · exact TextsApart.addedText h.texts t
  · intro c hc
    rcases mem_addedText hc with hc | rfl | ⟨last, hlast, htext, rfl⟩
    · exact h.below c hc
    · exact everywhere_normal_leaf nofun rfl
    · exact everywhere_normal_addLiteral htext (h.below last hlast) t
  · intro hk
    exact absurd hk (Bool.eq_false_iff.mp htable)

theorem Growing.complete {es : List Event} {n : Node} (h : Growing es n) (hkind : n.kind ≠ .item) :
    n.Everywhere (Normal es) :=
  everywhere_normal hkind h.texts h.below

theorem isText_of_not_inline {n : Node} (h : n.kind.isInline = false) : n.isText = false := by
  obtain ⟨k, l, cs⟩ := n
  cases k with
  | text => cases h
  | _ => rfl

theorem mem_wrapInlineRuns {cs : List Node} {c : Node} (h : c ∈ wrapInlineRuns cs) :
    c.kind.isInline = false ∧ (c ∈ cs ∨ ∃ run, run <:+: cs ∧ c = .branch .paragraph run) := by
  obtain ⟨parts, hparts⟩ := exists_maximalRuns (fun n : Node => n.kind.isInline) cs
  rw [wrapInlineRuns_eq, hparts.replaceRuns_eq] at h
  obtain ⟨part, hpart, rfl⟩ := List.mem_map.mp h
  have helements : part.elements <:+: cs := by
    rw [← hparts.whole, List.flatMap_def]
    exact List.infix_of_mem_flatten (List.mem_map_of_mem hpart)
  cases part with
  | single n => exact ⟨hparts.fails n hpart, .inl (helements.subset List.mem_cons_self)⟩
  | run ns => exact ⟨rfl, .inr ⟨ns, helements, rfl⟩⟩

theorem Growing.settle_item {es : List Event} {l : Text} {cs : List Node}
    (h : Growing es (.mk .item l cs)) (hcompleted : Completed es (.mk .item l cs)) :
    (Node.mk .item l cs).settle.Everywhere (Normal es) := by
  refine everywhere_iff.mpr ⟨⟨?_, fun _ => ⟨l, cs, hcompleted, rfl⟩⟩, ?_⟩
  · apply textsApart_of_none
    intro c hc
    exact isText_of_not_inline (mem_wrapInlineRuns hc).1
  · intro c hc
    obtain ⟨-, hc | ⟨run, hrun, rfl⟩⟩ := mem_wrapInlineRuns hc
    · exact h.below c hc
    · -- A paragraph is a stretch of the item, where the texts were apart already.
      have hapart : TextsApart run := List.IsChain.infix h.texts hrun
      exact everywhere_normal nofun hapart fun m hm => h.below m (hrun.subset hm)

theorem Growing.settle_tableHead {es : List Event} {l : Text} {cs : List Node}
    (h : Growing es (.mk .tableHead l cs)) :
    (Node.mk .tableHead l cs).settle.Everywhere (Normal es) := by
  have hrow : (Node.branch .tableRow cs).Everywhere (Normal es) :=
    everywhere_normal nofun h.texts h.below
  have hsettle : (Node.mk .tableHead l cs).settle =
      if cs.all (·.kind == .tableCell) then .mk .tableHead l [.branch .tableRow cs]
      else .mk .tableHead l cs := rfl
  rw [hsettle]
  split
  · apply everywhere_normal
    · nofun
    · exact .singleton _
    · exact List.forall_mem_singleton.mpr hrow
  · exact h.complete nofun

/-- A table has no texts, so none come together when the rows between its other children leave. -/
theorem Growing.settle_table {es : List Event} {alignments : List Alignment} {l : Text}
    {cs : List Node} (h : Growing es (.mk (.table alignments) l cs)) :
    (Node.mk (.table alignments) l cs).settle.Everywhere (Normal es) := by
  have hnone : ∀ c ∈ cs, c.isText = false := h.table rfl
  have hbody : (Node.branch .tableBody (cs.filter (·.kind == .tableRow))).Everywhere (Normal es) := by
    apply everywhere_normal
    · nofun
    · exact textsApart_of_none fun c hc => hnone c (List.mem_filter.mp hc).1
    · exact fun c hc => h.below c (List.mem_filter.mp hc).1
  apply everywhere_normal
  · nofun
  · apply textsApart_of_none
    intro c hc
    rcases List.mem_append.mp hc with hc | hc
    · exact hnone c (List.mem_filter.mp hc).1
    · rw [List.mem_singleton.mp hc]
      rfl
  · intro c hc
    rcases List.mem_append.mp hc with hc | hc
    · exact h.below c (List.mem_filter.mp hc).1
    · rwa [List.mem_singleton.mp hc]

theorem Growing.settle {es : List Event} {n : Node} (h : Growing es n)
    (hcompleted : Completed es n) : n.settle.Everywhere (Normal es) := by
  obtain ⟨k, l, cs⟩ := n
  cases k with
  | item => exact h.settle_item hcompleted
  | tableHead => exact h.settle_tableHead
  | table alignments => exact h.settle_table
  | _ => exact h.complete nofun

def Event.tagsBehind (around : List Tag) : Event → List Tag
  | .start tag => tag :: around
  | .finish => around.tail
  | _ => around

def Event.isText : Event → Bool
  | .text _ => true
  | .softBreak => true
  | _ => false

/-- Whether no text stands directly in a table, within the tags `around` that are open. -/
def textFreeTables (around : List Tag) : List Event → Bool
  | [] => true
  | e :: es =>
    !(e.isText && around.head?.any (·.kind.isTable)) && textFreeTables (e.tagsBehind around) es

def ended (es : List Event) : List Event :=
  es ++ List.replicate ((OpenNodes.initial.run es).length - 1) .finish

theorem run_ended (es : List Event) : OpenNodes.initial.run (ended es) = [Node.ofEvents es] := by
  have hroot : bottom (OpenNodes.initial.run es) = some .document := bottom_run rfl es
  have hlength : (OpenNodes.initial.run es).length =
      (OpenNodes.initial.run es).length - 1 + 1 := by
    cases hstack : OpenNodes.initial.run es with
    | nil =>
      rw [hstack] at hroot
      cases hroot
    | cons top rest => rfl
  rw [ended, run_append, run_finishes _ hlength]
  rfl

theorem textFreeTables_append_finishes (around : List Tag) (es : List Event) (depth : Nat) :
    textFreeTables around (es ++ List.replicate depth .finish) = textFreeTables around es := by
  induction es generalizing around with
  | nil =>
    induction depth generalizing around with
    | zero => rfl
    | succ depth ih => exact ih around.tail
  | cons e es ih => rw [List.cons_append, textFreeTables, textFreeTables, ih]

/-- What the events so far have led to: the open nodes are those of the tags that are open, with the
document around them. -/
structure Reached (past : List Event) (around : List Tag) (stack : OpenNodes) : Prop where
  run : OpenNodes.initial.run past = stack
  kinds : stack.map Node.kind = around.map Tag.kind ++ [.document]
  growing : ∀ n ∈ stack, Growing past n

theorem reached_initial : Reached [] [] OpenNodes.initial :=
  ⟨rfl, rfl, List.forall_mem_singleton.mpr (growing_branch [] .document)⟩

theorem Reached.top_isTable {past : List Event} {around : List Tag} {top : Node} {rest : List Node}
    (h : Reached past around (top :: rest)) :
    top.kind.isTable = around.head?.any (·.kind.isTable) := by
  have hkinds := h.kinds
  cases around with
  | nil =>
    rw [(List.cons.inj hkinds).1]
    rfl
  | cons tag around => exact congrArg Kind.isTable (List.cons.inj hkinds).1

theorem step_event_cases (l : Leaf) (top : Node) (rest : List Node) :
    (l.event.isText = true ∧
        ∃ t, OpenNodes.step (top :: rest) l.event = OpenNodes.addTextTo t top :: rest) ∨
      (∃ t, OpenNodes.step (top :: rest) l.event = top.addLiteral t :: rest) ∨
      (l.node.isText = false ∧
        OpenNodes.step (top :: rest) l.event = top.addChild l.node :: rest) := by
  cases l with
  | text t => exact .inl ⟨rfl, t, rfl⟩
  | softBreak => exact .inl ⟨rfl, ['\n'], rfl⟩
  | html t =>
    by_cases hblock : (top.kind == .htmlBlock) = true
    · exact .inr (.inl ⟨t, if_pos hblock⟩)
    · exact .inr (.inr ⟨rfl, if_neg hblock⟩)
  | _ => exact .inr (.inr ⟨rfl, rfl⟩)

theorem everywhere_normal_node (es : List Event) (l : Leaf) : l.node.Everywhere (Normal es) := by
  apply everywhere_normal_leaf
  · cases l <;> nofun
  · cases l <;> rfl

theorem Growing.step {es : List Event} {top : Node} (h : Growing es top) {l : Leaf}
    (hfree : l.event.isText = true → top.kind.isTable = false) (rest : List Node) :
    ∃ grown, OpenNodes.step (top :: rest) l.event = grown :: rest ∧ Growing es grown ∧
      grown.kind = top.kind := by
  obtain ⟨htext, t, hstep⟩ | ⟨t, hstep⟩ | ⟨htext, hstep⟩ := step_event_cases l top rest
  · exact ⟨_, hstep, h.addTextTo (hfree htext) t, (Markdown.Grown.text t).kind⟩
  · exact ⟨_, hstep, h.addLiteral t, (Markdown.Grown.literal t).kind⟩
  · exact ⟨_, hstep, h.addChild (everywhere_normal_node es l) htext, addChild_kind top _⟩

theorem isText_settle {n : Node} {tag : Tag} (h : n.kind = tag.kind) : n.settle.isText = false := by
  obtain ⟨k, l, cs⟩ := n
  obtain rfl : k = tag.kind := h
  rw [settle_eq]
  exact beq_eq_false_iff_ne.mpr (kind_ne_text tag)

theorem Reached.run_concat {past : List Event} {around : List Tag} {stack : OpenNodes}
    (h : Reached past around stack) (e : Event) :
    OpenNodes.initial.run (past ++ [e]) = stack.step e := by
  rw [run_append, h.run]
  rfl

theorem Reached.start {past : List Event} {around : List Tag} {stack : OpenNodes}
    (h : Reached past around stack) (tag : Tag) :
    Reached (past ++ [.start tag]) (tag :: around) (.branch tag.kind [] :: stack) := by
  constructor
  · exact h.run_concat (.start tag)
  · exact congrArg (tag.kind :: ·) h.kinds
  · rw [List.forall_mem_cons]
    exact ⟨growing_branch _ tag.kind, fun n hn => (h.growing n hn).concat _⟩

theorem Reached.finish {past : List Event} {around : List Tag} {tag : Tag} {top parent : Node}
    {rest : List Node} (h : Reached past (tag :: around) (top :: parent :: rest)) :
    Reached (past ++ [.finish]) around (parent.addChild top.settle :: rest) := by
  obtain ⟨hkind, hkinds⟩ := List.cons.inj h.kinds
  have hgrowing : ∀ n ∈ top :: parent :: rest, Growing (past ++ [.finish]) n :=
    fun n hn => (h.growing n hn).concat .finish
  obtain ⟨htop, hgrowing⟩ := List.forall_mem_cons.mp hgrowing
  obtain ⟨hparent, hrest⟩ := List.forall_mem_cons.mp hgrowing
  have hcompleted : Completed (past ++ [.finish]) top :=
    ⟨past, [], parent :: rest, rfl, h.run, nofun⟩
  constructor
  · exact h.run_concat .finish
  · change (parent.addChild top.settle).kind :: rest.map Node.kind = _
    rw [addChild_kind]
    exact hkinds
  · rw [List.forall_mem_cons]
    exact ⟨hparent.addChild (htop.settle hcompleted) (isText_settle hkind), hrest⟩

theorem Reached.leaf {past : List Event} {around : List Tag} {top : Node} {rest : List Node}
    (h : Reached past around (top :: rest)) {l : Leaf}
    (hfree : l.event.isText = true → top.kind.isTable = false) :
    Reached (past ++ [l.event]) around (OpenNodes.step (top :: rest) l.event) := by
  have hrun := h.run_concat l.event
  obtain ⟨htop, hrest⟩ := List.forall_mem_cons.mp h.growing
  obtain ⟨grown, hstep, hgrown, hkind⟩ := (htop.concat l.event).step hfree rest
  rw [hstep] at hrun ⊢
  constructor
  · exact hrun
  · rw [List.map_cons, hkind]
    exact h.kinds
  · rw [List.forall_mem_cons]
    exact ⟨hgrown, fun n hn => (hrest n hn).concat _⟩

theorem Reached.step {past : List Event} {around : List Tag} {stack : OpenNodes}
    (h : Reached past around stack) {e : Event}
    (hfree : (e.isText && around.head?.any (·.kind.isTable)) = false) :
    Reached (past ++ [e]) (e.tagsBehind around) (stack.step e) := by
  cases stack with
  | nil => exact absurd h.kinds (by simp)
  | cons top rest =>
    obtain ⟨tag, rfl⟩ | rfl | ⟨l, rfl⟩ := event_cases e
    · exact h.start tag
    · cases rest with
      | nil =>
        have hnone : around = [] := by simpa using congrArg List.length h.kinds
        subst hnone
        exact ⟨h.run_concat .finish, h.kinds, fun n hn => (h.growing n hn).concat .finish⟩
      | cons parent rest =>
        cases around with
        | nil => exact absurd h.kinds (by simp)
        | cons tag around => exact h.finish
    · have htable : l.event.isText = true → top.kind.isTable = false := by
        intro htext
        rwa [htext, Bool.true_and, ← h.top_isTable] at hfree
      have hsame : l.event.tagsBehind around = around := by cases l <;> rfl
      rw [hsame]
      exact h.leaf htable

theorem Reached.growing_run {past : List Event} {around : List Tag} {stack : OpenNodes}
    (h : Reached past around stack) {es : List Event} (hfree : textFreeTables around es = true) :
    ∀ n ∈ stack.run es, Growing (past ++ es) n := by
  -- Each event that is read moves from what is to come to what has led to the open nodes.
  induction es generalizing past around stack with
  | nil =>
    rw [List.append_nil]
    exact h.growing
  | cons e es ih =>
    obtain ⟨hevent, hrest⟩ := Bool.and_eq_true_iff.mp hfree
    rw [Bool.not_eq_true'] at hevent
    have hfurther := ih (h.step hevent) hrest
    rwa [List.append_assoc, List.singleton_append] at hfurther

/-- Where no text stands directly in a table, no two texts stand side by side. Each item has no
inline child: it is what it was when it was completed, with its maximal runs of inline nodes in
paragraphs. -/
theorem ofEvents_is_in_normal_form {es : List Event} (h : textFreeTables [] es = true) :
    (Node.ofEvents es).Everywhere fun n => TextsApart n.children ∧
      (n.kind = .item → (∀ c ∈ n.children, c.kind.isInline = false) ∧
        ∃ l cs parts, Completed (ended es) (.mk .item l cs) ∧
          n = .mk .item l (wrapInlineRuns cs) ∧ MaximalRuns (·.kind.isInline) cs parts ∧
          n.children = parts.map (Stretch.replaced (.branch .paragraph))) := by
  have hfree : textFreeTables [] (ended es) = true := by
    rw [ended, textFreeTables_append_finishes, h]
  have hgrowing := reached_initial.growing_run hfree
  rw [run_ended, List.nil_append] at hgrowing
  have hroot : (Node.ofEvents es).kind = .document := Markdown.finish_kind (bottom_run rfl es)
  have hdocument : (Node.ofEvents es).Everywhere (Normal (ended es)) := by
    apply (hgrowing _ List.mem_cons_self).complete
    rw [hroot]
    nofun
  refine hdocument.mono ?_
  intro n hn
  refine ⟨hn.texts, ?_⟩
  intro hitem
  obtain ⟨l, cs, hcompleted, rfl⟩ := hn.item hitem
  obtain ⟨parts, hparts⟩ := exists_maximalRuns (fun c : Node => c.kind.isInline) cs
  have hchildren : wrapInlineRuns cs = parts.map (Stretch.replaced (.branch .paragraph)) :=
    (wrapInlineRuns_eq cs).trans hparts.replaceRuns_eq
  exact ⟨fun c hc => (mem_wrapInlineRuns hc).1, l, cs, parts, hcompleted, rfl, hparts, hchildren⟩

/-- An end too many, then an item that is left open, with runs of inline nodes around a rule and
before a table. -/
def mixedItem : List Event :=
  [.finish, .start (.list false), .start .item, .text ['a'], .softBreak, .code ['b'], .rule,
    .text ['c'], .start (.table [.none]), .start .tableRow, .start .tableCell, .text ['d'], .softBreak]

def wrappedItem : Node :=
  .branch .item [.branch .paragraph [.ofText ['a', '\n'], .leaf .code ['b']],
    .branch .thematicBreak [], .branch .paragraph [.ofText ['c']],
    .branch (.table [.none])
      [.branch .tableBody [.branch .tableRow [.branch .tableCell [.ofText ['d', '\n']]]]]]

theorem ofEvents_is_in_normal_form_mixedItem : textFreeTables [] mixedItem = true ∧
    Node.ofEvents mixedItem = .branch .document [.branch (.list false) [wrappedItem]] ∧
      TextsApart wrappedItem.children ∧ (∀ c ∈ wrappedItem.children, c.kind.isInline = false) ∧
      ∃ l cs parts, Completed (ended mixedItem) (.mk .item l cs) ∧
        wrappedItem = .mk .item l (wrapInlineRuns cs) ∧ MaximalRuns (·.kind.isInline) cs parts ∧
        wrappedItem.children = parts.map (Stretch.replaced (.branch .paragraph)) := by
  have hfree : textFreeTables [] mixedItem = true := by decide
  have htree : Node.ofEvents mixedItem =
      .branch .document [.branch (.list false) [wrappedItem]] := by
    decide
  have hitem : (Node.ofEvents mixedItem).Contains wrappedItem := by
    rw [htree]
    exact .head List.mem_cons_self (.single List.mem_cons_self)
  obtain ⟨htexts, hwrapped⟩ := ofEvents_is_in_normal_form hfree wrappedItem hitem
  exact ⟨hfree, htree, htexts, hwrapped rfl⟩

-- A row that stands between two texts of a table goes to the body, and leaves them side by side.
example : Node.ofEvents [.start (.table []), .text ['a'], .start .tableRow, .finish, .text ['b']] =
    .branch .document [.branch (.table []) [.ofText ['a'], .ofText ['b'],
      .branch .tableBody [.branch .tableRow []]]] := by
  decide

end CanonMark
