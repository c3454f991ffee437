import CanonMark.Markdown.Reader
import CanonMark.Proofs.Markdown.Moves
import CanonMark.Proofs.Markdown.Trees

/-! # Levels of headings

What holds of every leaf that is read from lines, and of a container if it holds of the blocks in
it, holds of all blocks of a source. So each of their headings has a level from one to six, and then
no event and no child of the document has another one.
-/
namespace CanonMark.Markdown

open OpenNodes (run)

/-- What holds of every leaf, and passes from the blocks in a container to the container. -/
structure Hereditary (P : Block → Prop) : Prop where
  leaf : ∀ b, b.IsLeaf → P b
  quote : ∀ bs, (∀ b ∈ bs, P b) → P (.quote bs)
  list : ∀ ordered tight bs, (∀ b ∈ bs, P b) → P (.list ordered tight bs)
  item : ∀ bs, (∀ b ∈ bs, P b) → P (.item bs)

structure State.Holds (P : Block → Prop) (s : State) : Prop where
  frames : ∀ bs ∈ s.frames.map Frame.blocks, ∀ b ∈ bs, P b
  blocks : ∀ b ∈ s.blocks, P b

variable {P : Block → Prop}

theorem Hereditary.complete (hP : Hereditary P) {f : Frame} (h : ∀ b ∈ f.blocks, P b) :
    P f.complete := by
  have hrev : ∀ b ∈ f.blocks.reverse, P b := by simpa using h
  unfold Frame.complete
  split
  · exact hP.quote _ hrev
  · exact hP.list _ _ _ hrev
  · exact hP.item _ hrev

theorem State.Holds.add {s : State} (hs : s.Holds P) {b : Block} (hb : P b) : (s.add b).Holds P := by
  unfold State.add
  split
  · exact ⟨hs.frames, List.forall_mem_cons.mpr ⟨hb, hs.blocks⟩⟩
  · next f fs hframes =>
    have hall := hs.frames
    rw [hframes, List.map_cons, List.forall_mem_cons] at hall
    refine ⟨?_, hs.blocks⟩
    rw [List.map_cons, List.forall_mem_cons]
    exact ⟨List.forall_mem_cons.mpr ⟨hb, hall.1⟩, hall.2⟩

theorem State.Holds.close (hP : Hereditary P) {s : State} (hs : s.Holds P) : s.close.Holds P := by
  unfold State.close
  split
  · exact hs
  · next f fs hframes =>
    have hall := hs.frames
    rw [hframes, List.map_cons, List.forall_mem_cons] at hall
    have hrest : { s with frames := fs }.Holds P := ⟨hall.2, hs.blocks⟩
    have hadd := hrest.add (hP.complete hall.1)
    dsimp only
    split
    · exact ⟨hadd.frames, hadd.blocks⟩
    · exact hadd

theorem holds_move (hP : Hereditary P) {s t : State} (h : Move s t) (hs : s.Holds P) : t.Holds P := by
  cases h with
  | leaf hb => exact hs.add (hP.leaf _ hb)
  | close => exact hs.close hP
  | push =>
    refine ⟨?_, hs.blocks⟩
    rw [State.push, List.map_cons, List.forall_mem_cons]
    exact ⟨by simp, hs.frames⟩
  | keep hframes hblocks => exact ⟨hframes ▸ hs.frames, hblocks ▸ hs.blocks⟩

theorem holds_moves (hP : Hereditary P) {s t : State} (h : Moves s t) (hs : s.Holds P) : t.Holds P := by
  induction h with
  | refl => exact hs
  | tail _ hstep ih => exact holds_move hP hstep ih

/-- What is hereditary holds of every block of a source. -/
theorem holds_blocks (hP : Hereditary P) (source : Text) : ∀ b ∈ (blocks source).1, P b := by
  have hinitial : State.initial.Holds P := ⟨by simp [State.initial], by simp [State.initial]⟩
  have hread := holds_moves hP (moves_readBlocks (lines source).length _ (lines source)) hinitial
  have hclosed := fun n => holds_moves hP (State.moves_closeMany _ n) hread
  simpa [blocks] using (hclosed _).blocks

def leveled : Kind → Bool
  | .heading level => 1 ≤ level && level ≤ 6
  | _ => true

def Leveled (es : List Event) : Prop := ∀ tag, .start tag ∈ es → leveled tag.kind = true

theorem leveled_append {es fs : List Event} (he : Leveled es) (hf : Leveled fs) :
    Leveled (es ++ fs) := by
  intro tag htag
  rcases List.mem_append.mp htag with h | h
  · exact he tag h
  · exact hf tag h

theorem leveled_enclosed {tag : Tag} (htag : leveled tag.kind = true) {es : List Event}
    (he : Leveled es) : Leveled (enclosed tag es) := by
  intro other hother
  simp only [enclosed, List.cons_append, List.mem_cons, List.mem_append, Event.start.injEq,
    reduceCtorEq, List.not_mem_nil, or_false] at hother
  rcases hother with rfl | h
  · exact htag
  · exact he other h

mutual
theorem leveled_span : ∀ s : Span, Leveled (spanEvents s)
  | .text t => by simp [Leveled, spanEvents]
  | .softBreak => by simp [Leveled, spanEvents]
  | .hardBreak _ => by simp [Leveled, spanEvents]
  | .code t => by simp [Leveled, spanEvents]
  | .html t => by simp [Leveled, spanEvents]
  | .emphasis content => leveled_enclosed rfl (leveled_spans content)
  | .strong content => leveled_enclosed rfl (leveled_spans content)
  | .link destination title content => leveled_enclosed rfl (leveled_spans content)
  | .image destination title content => leveled_enclosed rfl (leveled_spans content)

theorem leveled_spans : ∀ ss : List Span, Leveled (spansEvents ss)
  | [] => by simp [Leveled, spansEvents]
  | s :: ss => leveled_append (leveled_span s) (leveled_spans ss)
end

theorem leveled_inline (definitions : List Definition) (content : Content) (allowance : Nat) :
    Leveled (inlineReport definitions content allowance).1 :=
  leveled_spans _

theorem leveled_all {α : Type} {report : α → Nat → Report} (h : ∀ part n, Leveled (report part n).1)
    (parts : List α) (allowance : Nat) : Leveled (Report.all report parts allowance).1 := by
  have hfold : ∀ (parts : List α) (r : Report), Leveled r.1 →
      Leveled (parts.foldl (fun r part => r.andThen (report part)) r).1 := by
    intro parts
    induction parts with
    | nil => exact fun r hr => hr
    | cons part parts ih => exact fun r hr => ih _ (leveled_append hr (h part r.2))
  exact hfold parts ([], allowance) (by simp [Leveled])

theorem leveled_row (definitions : List Definition) {tag : Tag} (htag : leveled tag.kind = true)
    (row : List Content) (allowance : Nat) : Leveled (rowReport definitions tag row allowance).1 :=
  leveled_enclosed htag
    (leveled_all (fun cell n => leveled_enclosed rfl (leveled_inline definitions cell n)) row _)

theorem leveled_text (t : Text) : Leveled (textEvents t) := by
  unfold textEvents
  split <;> simp [Leveled]

theorem leveled_blocks {definitions : List Definition} {tight : Bool} {bs : List Block}
    (h : ∀ b ∈ bs, ∀ allowance, Leveled (blockReport definitions tight allowance b).1)
    (allowance : Nat) : Leveled (blocksReport definitions tight allowance bs).1 := by
  induction bs generalizing allowance with
  | nil => simp [blocksReport, Leveled]
  | cons b bs ih =>
    exact leveled_append (h b List.mem_cons_self allowance)
      (ih (fun c hc => h c (List.mem_cons_of_mem _ hc)) _)

theorem hereditary_leveled : Hereditary fun b =>
    ∀ definitions tight allowance, Leveled (blockReport definitions tight allowance b).1 where
  leaf b hb := by
    intro definitions tight allowance
    cases hb with
    | paragraph content =>
      unfold blockReport
      dsimp only
      split
      · exact leveled_inline definitions content allowance
      · exact leveled_enclosed rfl (leveled_inline definitions content allowance)
    | @heading level content hlevel =>
      have htag : leveled (Tag.heading level).kind = true := by simp [leveled, Tag.kind, hlevel]
      exact leveled_enclosed htag (leveled_inline definitions content allowance)
    | fenced length info code => exact leveled_enclosed rfl (leveled_text code)
    | indented code => exact leveled_enclosed rfl (leveled_text code)
    | html margin literal =>
      exact leveled_enclosed rfl (leveled_append (leveled_text margin) (by simp [Leveled]))
    | table alignments header rows =>
      exact leveled_enclosed rfl (leveled_append (leveled_row definitions rfl header _)
        (leveled_all (leveled_row definitions rfl) rows _))
    | rule => simp [blockReport, Leveled]
  quote bs h := fun definitions _ _ =>
    leveled_enclosed rfl (leveled_blocks (fun b hb => h b hb definitions false) _)
  list ordered tight bs h := fun definitions _ _ =>
    leveled_enclosed rfl (leveled_blocks (fun b hb => h b hb definitions tight) _)
  item bs h := fun definitions tight _ =>
    leveled_enclosed rfl (leveled_blocks (fun b hb => h b hb definitions tight) _)

theorem leveled_events (source : Text) : Leveled (events source) :=
  leveled_blocks (fun b hb allowance => holds_blocks hereditary_leveled source b hb _ false allowance) _

structure LeveledNode (n : Node) : Prop where
  own : leveled n.kind = true
  children : ∀ c ∈ n.children, leveled c.kind = true

theorem leveledNode_branch {k : Kind} (hk : leveled k = true) : LeveledNode (.branch k []) :=
  ⟨hk, by simp [Node.branch, Node.children]⟩

theorem settle_kind (n : Node) : n.settle.kind = n.kind := by
  unfold Node.settle
  split
  · rfl
  · split <;> rfl
  · rfl
  · rfl

theorem LeveledNode.addChild {n c : Node} (hn : LeveledNode n) (hc : leveled c.kind = true) :
    LeveledNode (n.addChild c) := by
  obtain ⟨k, l, cs⟩ := n
  refine ⟨hn.own, ?_⟩
  intro d hd
  rcases List.mem_append.mp hd with hd | hd
  · exact hn.children d hd
  · rw [List.mem_singleton.mp hd]
    exact hc

theorem LeveledNode.addTextTo {n : Node} (hn : LeveledNode n) (t : Text) :
    LeveledNode (OpenNodes.addTextTo t n) := by
  obtain ⟨k, l, cs⟩ := n
  rw [addTextTo_eq]
  split
  · exact ⟨hn.own, hn.children⟩
  · refine ⟨hn.own, ?_⟩
    intro d hd
    rcases mem_addedText hd with hd | rfl | ⟨last, hlast, -, rfl⟩
    · exact hn.children d hd
    · rfl
    · obtain ⟨k', l', cs'⟩ := last
      exact hn.children (.mk k' l' cs') hlast

theorem Grown.leveled {n m : Node} (h : Grown n m) (hn : LeveledNode n) : LeveledNode m := by
  cases h with
  | child c hc =>
    refine hn.addChild ?_
    unfold Markdown.leveled
    split
    · next level hlevel => exact absurd hlevel (hc level)
    · rfl
  | text t => exact hn.addTextTo t
  | literal t =>
    obtain ⟨k, l, cs⟩ := n
    exact ⟨hn.own, hn.children⟩

theorem leveled_step {stack : OpenNodes} (h : ∀ n ∈ stack, LeveledNode n) {e : Event}
    (he : ∀ tag, e = .start tag → leveled tag.kind = true) : ∀ n ∈ stack.step e, LeveledNode n := by
  cases stack with
  | nil =>
    cases e with
    | start tag => exact List.forall_mem_cons.mpr ⟨leveledNode_branch (he tag rfl), h⟩
    | _ => exact h
  | cons top rest =>
    obtain ⟨htop, hrest⟩ := List.forall_mem_cons.mp h
    rcases step_cases top rest e with ⟨tag, rfl⟩ | rfl | ⟨grown, hgrown, hstep⟩
    · exact List.forall_mem_cons.mpr ⟨leveledNode_branch (he tag rfl), h⟩
    · cases rest with
      | nil => exact h
      | cons parent rest =>
        obtain ⟨hparent, hrest⟩ := List.forall_mem_cons.mp hrest
        have hsettled : leveled top.settle.kind = true := by rw [settle_kind, htop.own]
        exact List.forall_mem_cons.mpr ⟨hparent.addChild hsettled, hrest⟩
    · rw [hstep]
      exact List.forall_mem_cons.mpr ⟨hgrown.leveled htop, hrest⟩

theorem leveled_run {es : List Event} (hes : Leveled es) {stack : OpenNodes}
    (h : ∀ n ∈ stack, LeveledNode n) : ∀ n ∈ run es stack, LeveledNode n := by
  induction es generalizing stack with
  | nil => exact h
  | cons e es ih =>
    refine ih (fun tag htag => hes tag (List.mem_cons_of_mem _ htag)) (leveled_step h ?_)
    rintro tag rfl
    exact hes tag List.mem_cons_self

theorem leveled_finish {stack : OpenNodes} (h : ∀ n ∈ stack, LeveledNode n) :
    LeveledNode stack.finish := by
  have hfrom : ∀ (rest : List Node) (top : Node), LeveledNode top → (∀ n ∈ rest, LeveledNode n) →
      LeveledNode (OpenNodes.finishFrom top rest) := by
    intro rest
    induction rest with
    | nil => exact fun top htop _ => htop
    | cons parent rest ih =>
      intro top htop hrest
      obtain ⟨hparent, hrest⟩ := List.forall_mem_cons.mp hrest
      exact ih _ (hparent.addChild (by rw [settle_kind, htop.own])) hrest
  cases stack with
  | nil => exact leveledNode_branch rfl
  | cons top rest =>
    obtain ⟨htop, hrest⟩ := List.forall_mem_cons.mp h
    exact hfrom rest top htop hrest

/-- The headings of a document have levels from one to six. -/
theorem parse_leveled (source : Text) : ∀ c ∈ (parse source).children, leveled c.kind = true := by
  have hinitial : ∀ n ∈ OpenNodes.initial, LeveledNode n := by
    intro n hn
    rw [List.mem_singleton.mp hn]
    exact leveledNode_branch rfl
  exact (leveled_finish (leveled_run (leveled_events source) hinitial)).children

end CanonMark.Markdown
