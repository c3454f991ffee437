import CanonMark.Proofs.Markdown.Nodes

/-! # Trees of blocks

The document of blocks without definitions, told without events.
-/
namespace CanonMark.Markdown

open OpenNodes (run)

def contentNodes (content : Content) : List Node := spansNodes [] (plainSpans content)

theorem contentNodes_inline (content : Content) :
    ∀ c ∈ contentNodes content, c.kind.isInline = true :=
  spansNodes_inline _ (by simp)

def cellNode (content : Content) : Node := .branch .tableCell (contentNodes content)

mutual
/-- Nodes with those of a block behind them; `tight` says that the block stands directly in an item
of a tight list. -/
def blockNodes (tight : Bool) (cs : List Node) : Block → List Node
  | .paragraph content =>
    if tight then spansNodes cs (plainSpans content)
    else cs ++ [.branch .paragraph (contentNodes content)]
  | .heading level content => cs ++ [.branch (.heading level) (contentNodes content)]
  | .fenced length info code => cs ++ [.leaf (.codeBlock true length info) code]
  | .indented code => cs ++ [.leaf (.codeBlock false 0 []) code]
  | .html margin literal =>
    cs ++ [.mk .htmlBlock literal (if margin.isEmpty then [] else [.ofText margin])]
  | .table alignments header rows =>
    cs ++ [.branch (.table alignments)
      [.branch .tableHead [.branch .tableRow (header.map cellNode)],
        .branch .tableBody (rows.map fun row => .branch .tableRow (row.map cellNode))]]
  | .rule => cs ++ [.branch .thematicBreak []]
  | .quote content => cs ++ [.branch .quote (blocksNodes false [] content)]
  | .list ordered tight items => cs ++ [.branch (.list ordered) (blocksNodes tight [] items)]
  | .item content => cs ++ [.branch .item (wrapInlineRuns (blocksNodes tight [] content))]

def blocksNodes (tight : Bool) (cs : List Node) : List Block → List Node
  | [] => cs
  | b :: bs => blocksNodes tight (blockNodes tight cs b) bs
end

/-- Events that add nodes to whatever node is open. -/
def Adds (es : List Event) (ns : List Node) : Prop :=
  ∀ k l cs rest, k.isCodeBlock = false → run es (.mk k l cs :: rest) = .mk k l (cs ++ ns) :: rest

theorem adds_nil : Adds [] [] := by
  intro k l cs rest _
  rw [List.append_nil]
  rfl

theorem Adds.append {es fs : List Event} {ns ms : List Node} (h : Adds es ns) (h' : Adds fs ms) :
    Adds (es ++ fs) (ns ++ ms) := by
  intro k l cs rest hk
  rw [run_append, h k l cs rest hk, h' k l _ rest hk, List.append_assoc]

theorem adds_enclosed (tag : Tag) {es : List Event} {n : Node}
    (h : ∀ rest, run es (.branch tag.kind [] :: rest) = n :: rest) :
    Adds (enclosed tag es) [n.settle] := by
  intro k l cs rest _
  exact run_enclosed tag h _ _

theorem Adds.enclosed {es : List Event} {ns : List Node} (h : Adds es ns) (tag : Tag)
    (hk : tag.kind.isCodeBlock = false) :
    Adds (enclosed tag es) [(Node.branch tag.kind ns).settle] :=
  adds_enclosed tag fun rest => by rw [Node.branch, h _ _ _ _ hk]; rfl

theorem inlineReport_eq (content : Content) (allowance : Nat) :
    inlineReport [] content allowance = (spansEvents (plainSpans content), allowance) := by
  simp only [inlineReport, spans_nil]

theorem all_adds {α : Type} {report : α → Nat → Report} {node : α → Node} {parts : List α}
    (h : ∀ part ∈ parts, ∀ n, (report part n).2 = n ∧ Adds (report part n).1 [node part])
    (allowance : Nat) :
    (Report.all report parts allowance).2 = allowance ∧
      Adds (Report.all report parts allowance).1 (parts.map node) := by
  have hfold : ∀ (parts : List α), (∀ part ∈ parts, ∀ n, (report part n).2 = n ∧
      Adds (report part n).1 [node part]) → ∀ (r : Report) (ns : List Node), Adds r.1 ns →
      (parts.foldl (fun r part => r.andThen (report part)) r).2 = r.2 ∧
        Adds (parts.foldl (fun r part => r.andThen (report part)) r).1 (ns ++ parts.map node) := by
    intro parts
    induction parts with
    | nil =>
      intro _ r ns hr
      exact ⟨rfl, by simpa using hr⟩
    | cons part parts ih =>
      intro hparts r ns hr
      obtain ⟨hleft, hadds⟩ := hparts part (by simp) r.2
      obtain ⟨hleft', hadds'⟩ := ih (fun p hp => hparts p (by simp [hp])) (r.andThen (report part))
        (ns ++ [node part]) (hr.append hadds)
      refine ⟨hleft'.trans hleft, ?_⟩
      simpa using hadds'
  exact hfold parts h ([], allowance) [] adds_nil

theorem rowReport_adds (tag : Tag) (hk : tag.kind.isCodeBlock = false) (row : List Content)
    (allowance : Nat) : (rowReport [] tag row allowance).2 = allowance ∧
      Adds (rowReport [] tag row allowance).1 [(Node.branch tag.kind (row.map cellNode)).settle] := by
  have hcell : ∀ cell ∈ row, ∀ n,
      ((inlineReport [] cell n).enclose .tableCell).2 = n ∧
        Adds ((inlineReport [] cell n).enclose .tableCell).1 [cellNode cell] := by
    intro cell _ n
    rw [inlineReport_eq]
    exact ⟨rfl, adds_enclosed .tableCell fun rest => run_spans _ rfl _ _ _⟩
  obtain ⟨hleft, hadds⟩ := all_adds hcell allowance
  exact ⟨hleft, hadds.enclosed tag hk⟩

theorem settle_tableHead (row : List Content) :
    (Node.branch .tableHead (row.map cellNode)).settle =
      .branch .tableHead [.branch .tableRow (row.map cellNode)] := by
  have hall : (row.map cellNode).all (·.kind == .tableCell) = true := by
    simp only [List.all_map, List.all_eq_true]
    intro cell _
    rfl
  simp only [Node.branch, Node.settle, hall, if_true]

theorem settle_table (alignments : List Alignment) (head : List Node) (rows : List (List Content)) :
    (Node.branch (.table alignments)
      (.branch .tableHead head :: rows.map fun row => .branch .tableRow (row.map cellNode))).settle =
      .branch (.table alignments) [.branch .tableHead head,
        .branch .tableBody (rows.map fun row => .branch .tableRow (row.map cellNode))] := by
  generalize hbody : rows.map (fun row => Node.branch .tableRow (row.map cellNode)) = body
  have hrow : ∀ row ∈ body, row.kind = .tableRow := by
    intro row hrow
    rw [← hbody] at hrow
    obtain ⟨cells, -, rfl⟩ := List.mem_map.mp hrow
    rfl
  have hkept : body.filter (·.kind == .tableRow) = body :=
    List.filter_eq_self.mpr fun row hr => by simp [hrow row hr]
  have hgone : body.filter (·.kind != .tableRow) = [] :=
    List.filter_eq_nil_iff.mpr fun row hr => by simp [hrow row hr]
  have hhead : (Node.branch .tableHead head :: body).filter (·.kind != .tableRow) =
      .branch .tableHead head :: body.filter (·.kind != .tableRow) := rfl
  have hcells : (Node.branch .tableHead head :: body).filter (·.kind == .tableRow) =
      body.filter (·.kind == .tableRow) := rfl
  change Node.mk _ _ (_ ++ [Node.branch .tableBody _]) = _
  rw [hhead, hcells, hkept, hgone]
  rfl

theorem run_textEvents (fenced : Bool) (length : Nat) (info code : Text) (rest : List Node) :
    run (textEvents code) (.branch (.codeBlock fenced length info) [] :: rest) =
      .leaf (.codeBlock fenced length info) code :: rest := by
  cases code <;> rfl

theorem run_html (margin literal : Text) (rest : List Node) :
    run (textEvents margin ++ [.html literal]) (.branch .htmlBlock [] :: rest) =
      .mk .htmlBlock literal (if margin.isEmpty then [] else [.ofText margin]) :: rest := by
  cases margin <;> rfl

/-- The events of a block add its nodes, and leave the allowance as it is. -/
def Reported (tight : Bool) (b : Block) : Prop :=
  ∀ allowance k l cs rest, k.isCodeBlock = false →
    (blockReport [] tight allowance b).2 = allowance ∧
      run (blockReport [] tight allowance b).1 (.mk k l cs :: rest) =
        .mk k l (blockNodes tight cs b) :: rest

theorem reported_of_adds {tight : Bool} {b : Block} {ns : List Node}
    (h : ∀ allowance, (blockReport [] tight allowance b).2 = allowance ∧
      Adds (blockReport [] tight allowance b).1 ns)
    (hns : ∀ cs, blockNodes tight cs b = cs ++ ns) : Reported tight b := by
  intro allowance k l cs rest hk
  rw [hns]
  exact ⟨(h allowance).1, (h allowance).2 k l cs rest hk⟩

theorem inline_adds (content : Content) (tag : Tag) (hk : tag.kind.isCodeBlock = false)
    (allowance : Nat) : ((inlineReport [] content allowance).enclose tag).2 = allowance ∧
      Adds ((inlineReport [] content allowance).enclose tag).1
        [(Node.branch tag.kind (contentNodes content)).settle] := by
  rw [inlineReport_eq]
  exact ⟨rfl, adds_enclosed tag fun rest => run_spans _ hk _ _ _⟩

theorem table_adds (alignments : List Alignment) (header : List Content)
    (rows : List (List Content)) (tight : Bool) (allowance : Nat) :
    (blockReport [] tight allowance (.table alignments header rows)).2 = allowance ∧
      Adds (blockReport [] tight allowance (.table alignments header rows)).1
        [.branch (.table alignments) [.branch .tableHead [.branch .tableRow (header.map cellNode)],
          .branch .tableBody (rows.map fun row => .branch .tableRow (row.map cellNode))]] := by
  obtain ⟨hleft, hhead⟩ := rowReport_adds .tableHead rfl header allowance
  have hrow : ∀ row ∈ rows, ∀ n, (rowReport [] .tableRow row n).2 = n ∧
      Adds (rowReport [] .tableRow row n).1 [.branch .tableRow (row.map cellNode)] :=
    fun row _ n => rowReport_adds .tableRow rfl row n
  obtain ⟨hleft', hrows⟩ := all_adds hrow (rowReport [] .tableHead header allowance).2
  refine ⟨hleft'.trans hleft, ?_⟩
  have hall := (hhead.append hrows).enclosed (.table alignments) rfl
  change Adds _ [(Node.branch (.table alignments) ((Node.branch .tableHead
    (header.map cellNode)).settle :: rows.map _)).settle] at hall
  rw [settle_tableHead, settle_table] at hall
  exact hall

mutual
theorem block_reported (tight : Bool) : ∀ b, Reported tight b
  | .paragraph content => by
    cases tight with
    | true =>
      intro allowance k l cs rest hk
      have hreport : blockReport [] true allowance (.paragraph content) =
          inlineReport [] content allowance := rfl
      rw [hreport, inlineReport_eq]
      exact ⟨rfl, run_spans _ hk l cs rest⟩
    | false => exact reported_of_adds (inline_adds content .paragraph rfl) fun _ => rfl
  | .heading level content => reported_of_adds (inline_adds content (.heading level) rfl) fun _ => rfl
  | .fenced length info code =>
    reported_of_adds (fun _ => ⟨rfl, adds_enclosed (.fencedCode length info)
      (run_textEvents true length info code)⟩) fun _ => rfl
  | .indented code =>
    reported_of_adds (fun _ => ⟨rfl, adds_enclosed .indentedCode (run_textEvents false 0 [] code)⟩)
      fun _ => rfl
  | .html margin literal =>
    reported_of_adds (fun _ => ⟨rfl, adds_enclosed .htmlBlock (run_html margin literal)⟩) fun _ => rfl
  | .table alignments header rows =>
    reported_of_adds (table_adds alignments header rows tight) fun _ => rfl
  | .rule => reported_of_adds (fun _ => ⟨rfl, fun _ _ _ _ _ => rfl⟩) fun _ => rfl
  | .quote content =>
    reported_of_adds (fun allowance => blocks_enclosed false content allowance .quote rfl) fun _ => rfl
  | .list ordered tight' items =>
    reported_of_adds (fun allowance => blocks_enclosed tight' items allowance (.list ordered) rfl)
      fun _ => rfl
  | .item content =>
    reported_of_adds (fun allowance => blocks_enclosed tight content allowance .item rfl) fun _ => rfl

theorem blocks_reported (tight : Bool) : ∀ (bs : List Block) (allowance : Nat) (k : Kind) (l : Text)
    (cs rest : List Node), k.isCodeBlock = false →
    (blocksReport [] tight allowance bs).2 = allowance ∧
      run (blocksReport [] tight allowance bs).1 (.mk k l cs :: rest) =
        .mk k l (blocksNodes tight cs bs) :: rest
  | [], _, _, _, _, _, _ => ⟨rfl, rfl⟩
  | b :: bs, allowance, k, l, cs, rest, hk => by
    obtain ⟨hleft, hb⟩ := block_reported tight b allowance k l cs rest hk
    obtain ⟨hleft', hbs⟩ := blocks_reported tight bs (blockReport [] tight allowance b).2 k l
      (blockNodes tight cs b) rest hk
    refine ⟨hleft'.trans hleft, ?_⟩
    have hevents : (blocksReport [] tight allowance (b :: bs)).1 =
        (blockReport [] tight allowance b).1 ++
          (blocksReport [] tight (blockReport [] tight allowance b).2 bs).1 := rfl
    rw [hevents, run_append, hb, hbs, blocksNodes]

theorem blocks_enclosed (tight : Bool) (bs : List Block) (allowance : Nat) (tag : Tag)
    (hk : tag.kind.isCodeBlock = false) :
    ((blocksReport [] tight allowance bs).enclose tag).2 = allowance ∧
      Adds ((blocksReport [] tight allowance bs).enclose tag).1
        [(Node.branch tag.kind (blocksNodes tight [] bs)).settle] :=
  ⟨(blocks_reported tight bs allowance tag.kind [] [] [] hk).1, adds_enclosed tag fun rest =>
    (blocks_reported tight bs allowance tag.kind [] [] rest hk).2⟩
end

theorem parse_of_blocks {source : Text} {bs : List Block} (h : blocks source = (bs, [])) :
    parse source = .branch .document (blocksNodes false [] bs) := by
  have hrun := (blocks_reported false bs (max source.byteLength leastAllowance) .document [] [] []
    rfl).2
  simp only [parse, events, h, Node.ofEvents, OpenNodes.initial]
  rw [Node.branch, hrun]
  rfl

def bottom : OpenNodes → Option Kind
  | [] => none
  | [n] => some n.kind
  | _ :: m :: rest => bottom (m :: rest)

theorem addChild_kind (n m : Node) : (n.addChild m).kind = n.kind := by
  obtain ⟨k, l, cs⟩ := n
  rfl

theorem bottom_top {m n : Node} (h : m.kind = n.kind) (rest : List Node) :
    bottom (m :: rest) = bottom (n :: rest) := by
  cases rest with
  | nil => simp [bottom, h]
  | cons k rest => rfl

/-- What an open node becomes by an event that neither opens nor completes one. -/
inductive Grown (n : Node) : Node → Prop where
  | child (c : Node) : (∀ level, c.kind ≠ .heading level) → Grown n (n.addChild c)
  | text (t : Text) : Grown n (OpenNodes.addTextTo t n)
  | literal (t : Text) : Grown n (n.addLiteral t)

theorem Grown.kind {n m : Node} (h : Grown n m) : m.kind = n.kind := by
  cases h with
  | child c _ => exact addChild_kind n c
  | text t =>
    obtain ⟨kind, l, cs⟩ := n
    rw [addTextTo_eq]
    split <;> rfl
  | literal t =>
    obtain ⟨kind, l, cs⟩ := n
    rfl

theorem step_cases (top : Node) (rest : List Node) (e : Event) :
    (∃ tag, e = .start tag) ∨ e = .finish ∨
      ∃ grown, Grown top grown ∧ OpenNodes.step (top :: rest) e = grown :: rest := by
  have hleaf : ∀ c : Node, (∀ level, c.kind ≠ .heading level) →
      ∃ grown, Grown top grown ∧ top.addChild c :: rest = grown :: rest :=
    fun c hc => ⟨_, .child c hc, rfl⟩
  cases e with
  | start tag => exact .inl ⟨tag, rfl⟩
  | finish => exact .inr (.inl rfl)
  | text t => exact .inr (.inr ⟨_, .text t, rfl⟩)
  | softBreak => exact .inr (.inr ⟨_, .text ['\n'], rfl⟩)
  | html t =>
    refine .inr (.inr ?_)
    change ∃ grown, Grown top grown ∧ (if top.kind == .htmlBlock then top.addLiteral t :: rest
      else top.addChild (.leaf .htmlBlock t) :: rest) = grown :: rest
    split
    · exact ⟨_, .literal t, rfl⟩
    · exact hleaf _ nofun
  | _ => exact .inr (.inr (hleaf _ nofun))

theorem bottom_step {stack : OpenNodes} {k : Kind} (h : bottom stack = some k) (e : Event) :
    bottom (stack.step e) = some k := by
  cases stack with
  | nil => cases h
  | cons top rest =>
    rcases step_cases top rest e with ⟨tag, rfl⟩ | rfl | ⟨grown, hgrown, hstep⟩
    · exact h
    · cases rest with
      | nil => exact h
      | cons parent rest => exact (bottom_top (addChild_kind parent _) rest).trans h
    · rw [hstep]
      exact (bottom_top hgrown.kind rest).trans h

theorem bottom_run {stack : OpenNodes} {k : Kind} (h : bottom stack = some k) (es : List Event) :
    bottom (run es stack) = some k := by
  induction es generalizing stack with
  | nil => exact h
  | cons e es ih => exact ih (bottom_step h e)

theorem finish_kind {stack : OpenNodes} {k : Kind} (h : bottom stack = some k) :
    stack.finish.kind = k := by
  have hfrom : ∀ (rest : List Node) (top : Node), bottom (top :: rest) = some k →
      (OpenNodes.finishFrom top rest).kind = k := by
    intro rest
    induction rest with
    | nil => exact fun top htop => Option.some.inj htop
    | cons parent rest ih =>
      exact fun top htop => ih _ ((bottom_top (addChild_kind parent _) rest).trans htop)
  cases stack with
  | nil => cases h
  | cons top rest => exact hfrom rest top h

theorem parse_kind (source : Text) : (parse source).kind = .document :=
  finish_kind (bottom_run rfl _)

end CanonMark.Markdown
