import CanonMark.Proofs.Markdown.Moves
import CanonMark.Proofs.Markdown.Trees

/-! # The first block

A block that is complete outside of all containers stays: every step of the reader puts others
behind it. So the first such block is the first one of the document, whatever follows, and its node
is the document's first child.
-/
namespace CanonMark.Markdown

open OpenNodes (run)

namespace State

theorem suffix_add (s : State) (b : Block) : s.blocks <:+ (s.add b).blocks := by
  unfold add
  split
  · exact List.suffix_cons _ _
  · exact List.suffix_rfl

theorem suffix_close (s : State) : s.blocks <:+ s.close.blocks := by
  unfold close
  split
  · exact List.suffix_rfl
  · next f fs _ =>
    have hadd : s.blocks <:+ ({ s with frames := fs }.add f.complete).blocks :=
      suffix_add { s with frames := fs } f.complete
    dsimp only
    split <;> exact hadd

end State

theorem suffix_move {s t : State} (h : Move s t) : s.blocks <:+ t.blocks := by
  cases h with
  | leaf => exact s.suffix_add _
  | close => exact s.suffix_close
  | push => exact List.suffix_rfl
  | keep _ hblocks => exact hblocks ▸ List.suffix_rfl

theorem suffix_moves {s t : State} (h : Moves s t) : s.blocks <:+ t.blocks := by
  induction h with
  | refl => exact List.suffix_rfl
  | tail _ hstep ih => exact ih.trans (suffix_move hstep)

theorem blocks_begin {source : Text} {line : Line} {following rest : List Line} {s : State} {b : Block}
    (hlines : lines source = line :: following)
    (hread : readBlock .initial line following = (s, rest)) (hs : s.blocks = [b]) :
    ∃ bs definitions, blocks source = (b :: bs, definitions) := by
  have hrun : readBlocks (lines source).length .initial (lines source) =
      readBlocks following.length s rest := by
    rw [hlines, List.length_cons, readBlocks, hread]
  generalize hend : readBlocks following.length s rest = last at hrun
  have hsuffix : [b] <:+ (last.closeMany last.frames.length).blocks := by
    rw [← hs, ← hend]
    exact suffix_moves ((moves_readBlocks _ s rest).trans (State.moves_closeMany _ _))
  obtain ⟨bs, hbs⟩ := hsuffix
  refine ⟨bs.reverse, (last.closeMany last.frames.length).definitions, ?_⟩
  simp [blocks, hrun, ← hbs]

def firstChild : OpenNodes → Option Node
  | [] => none
  | [n] => n.children.head?
  | _ :: m :: rest => firstChild (m :: rest)

theorem firstChild_top {m n c : Node}
    (h : n.children.head? = some c → m.children.head? = some c) {rest : List Node}
    (hc : firstChild (n :: rest) = some c) : firstChild (m :: rest) = some c := by
  cases rest with
  | nil => exact h hc
  | cons k rest => exact hc

theorem addChild_first {n c : Node} (child : Node) (h : n.children.head? = some c) :
    (n.addChild child).children.head? = some c := by
  obtain ⟨k, l, cs⟩ := n
  cases cs with
  | nil => cases h
  | cons d cs => exact h

/-- Text is added to the first child only if that is a text. -/
theorem addTextTo_first {n c : Node} (hc : c.isText = false) (t : Text)
    (h : n.children.head? = some c) : (OpenNodes.addTextTo t n).children.head? = some c := by
  obtain ⟨k, l, cs⟩ := n
  rw [addTextTo_eq]
  split
  · exact h
  change (addedText cs t).head? = some c
  obtain ⟨-, hadded⟩ | ⟨before, last, hlast, rfl, hadded⟩ := addedText_cases cs t
  · rw [hadded]
    exact addChild_first (n := .mk k l cs) (.ofText t) h
  · rw [hadded]
    cases before with
    | nil =>
      obtain rfl : last = c := Option.some.inj h
      rw [hc] at hlast
      cases hlast
    | cons d before => exact h

theorem Grown.first {n m c : Node} (hc : c.isText = false) (hgrown : Grown n m)
    (h : n.children.head? = some c) : m.children.head? = some c := by
  cases hgrown with
  | child d _ => exact addChild_first d h
  | text t => exact addTextTo_first hc t h
  | literal t =>
    obtain ⟨k, l, cs⟩ := n
    exact h

theorem firstChild_step {stack : OpenNodes} {c : Node} (hc : c.isText = false)
    (h : firstChild stack = some c) (e : Event) : firstChild (stack.step e) = some c := by
  cases stack with
  | nil => cases h
  | cons top rest =>
    rcases step_cases top rest e with ⟨tag, rfl⟩ | rfl | ⟨grown, hgrown, hstep⟩
    · exact h
    · cases rest with
      | nil => exact h
      | cons parent rest => exact firstChild_top (addChild_first _) h
    · rw [hstep]
      exact firstChild_top (hgrown.first hc) h

theorem firstChild_run {stack : OpenNodes} {c : Node} (hc : c.isText = false)
    (h : firstChild stack = some c) (es : List Event) : firstChild (run es stack) = some c := by
  induction es generalizing stack with
  | nil => exact h
  | cons e es ih => exact ih (firstChild_step hc h e)

theorem finish_first {stack : OpenNodes} {c : Node} (h : firstChild stack = some c) :
    stack.finish.children.head? = some c := by
  have hfrom : ∀ (rest : List Node) (top : Node), firstChild (top :: rest) = some c →
      (OpenNodes.finishFrom top rest).children.head? = some c := by
    intro rest
    induction rest with
    | nil => exact fun top htop => htop
    | cons parent rest ih => exact fun top htop => ih _ (firstChild_top (addChild_first _) htop)
  cases stack with
  | nil => cases h
  | cons top rest => exact hfrom rest top h

theorem parse_first {source : Text} {b : Block} {bs : List Block} {definitions : List Definition}
    (h : blocks source = (b :: bs, definitions)) {n : Node} (hn : n.isText = false)
    (hb : Adds (blockReport definitions false (max source.byteLength leastAllowance) b).1 [n]) :
    (parse source).children.head? = some n := by
  obtain ⟨further, hevents⟩ : ∃ further, events source =
      (blockReport definitions false (max source.byteLength leastAllowance) b).1 ++ further := by
    refine ⟨(blocksReport definitions false (blockReport definitions false
      (max source.byteLength leastAllowance) b).2 bs).1, ?_⟩
    simp only [events, h, blocksReport]
  refine finish_first ?_
  rw [hevents, run_append]
  refine firstChild_run hn ?_ further
  rw [OpenNodes.initial, Node.branch, hb .document [] [] [] rfl]
  rfl

theorem fenced_adds (definitions : List Definition) (tight : Bool) (allowance length : Nat)
    (info code : Text) :
    Adds (blockReport definitions tight allowance (.fenced length info code)).1
      [.leaf (.codeBlock true length info) code] :=
  adds_enclosed (.fencedCode length info) (run_textEvents true length info code)

theorem inlineReport_adds (definitions : List Definition) (content : Content) (allowance : Nat)
    (tag : Tag) (hk : tag.kind.isCodeBlock = false) :
    ∃ ns, Adds ((inlineReport definitions content allowance).enclose tag).1
      [(Node.branch tag.kind ns).settle] :=
  ⟨_, adds_enclosed tag fun _ => run_spans _ hk _ _ _⟩

/-- Parts that each add nodes add nodes together. -/
theorem all_adds_some {α : Type} {report : α → Nat → Report}
    (h : ∀ part n, ∃ ns, Adds (report part n).1 ns) (parts : List α) (allowance : Nat) :
    ∃ ns, Adds (Report.all report parts allowance).1 ns := by
  have hfold : ∀ (parts : List α) (r : Report), (∃ ns, Adds r.1 ns) →
      ∃ ns, Adds (parts.foldl (fun r part => r.andThen (report part)) r).1 ns := by
    intro parts
    induction parts with
    | nil => exact fun r hr => hr
    | cons part parts ih =>
      rintro r ⟨ns, hns⟩
      obtain ⟨ms, hms⟩ := h part r.2
      exact ih (r.andThen (report part)) ⟨ns ++ ms, hns.append hms⟩
  exact hfold parts ([], allowance) ⟨[], adds_nil⟩

theorem rowReport_adds_some (definitions : List Definition) (tag : Tag)
    (hk : tag.kind.isCodeBlock = false) (row : List Content) (allowance : Nat) :
    ∃ ns, Adds (rowReport definitions tag row allowance).1 ns := by
  have hcell : ∀ cell n, ∃ ns,
      Adds ((inlineReport definitions cell n).enclose .tableCell).1 ns := by
    intro cell n
    obtain ⟨ns, hns⟩ := inlineReport_adds definitions cell n .tableCell rfl
    exact ⟨_, hns⟩
  obtain ⟨ns, hns⟩ := all_adds_some hcell row allowance
  exact ⟨_, hns.enclosed tag hk⟩

def Block.wordy (b : Block) : Prop :=
  ∀ definitions allowance, ∃ n, Adds (blockReport definitions false allowance b).1 [n] ∧
    n.kind.isCodeBlock = false ∧ n.isText = false

theorem wordy_paragraph (content : Content) : (Block.paragraph content).wordy := by
  intro definitions allowance
  obtain ⟨ns, hns⟩ := inlineReport_adds definitions content allowance .paragraph rfl
  exact ⟨_, hns, rfl, rfl⟩

theorem wordy_heading (level : Nat) (content : Content) : (Block.heading level content).wordy := by
  intro definitions allowance
  obtain ⟨ns, hns⟩ := inlineReport_adds definitions content allowance (.heading level) rfl
  exact ⟨_, hns, rfl, rfl⟩

theorem wordy_table (alignments : List Alignment) (header : List Content)
    (rows : List (List Content)) : (Block.table alignments header rows).wordy := by
  intro definitions allowance
  obtain ⟨ns, hns⟩ := rowReport_adds_some definitions .tableHead rfl header allowance
  obtain ⟨ms, hms⟩ := all_adds_some (rowReport_adds_some definitions .tableRow rfl) rows
    (rowReport definitions .tableHead header allowance).2
  exact ⟨_, (hns.append hms).enclosed (.table alignments) rfl, rfl, rfl⟩

theorem readParagraph_wordy (s : State) (t ending : Text) (following : List Line) :
    ∃ b, b.wordy ∧ (readParagraph s t ending following).1 = s.finishList.add b := by
  unfold readParagraph
  dsimp only
  split
  · exact ⟨_, wordy_table _ _ _, rfl⟩
  · split
    · exact ⟨_, wordy_heading _ _, rfl⟩
    · exact ⟨_, wordy_paragraph _, rfl⟩

end CanonMark.Markdown
