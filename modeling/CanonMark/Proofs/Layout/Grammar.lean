import CanonMark.Layout.Document

/-! # Which trees can be laid out

The layout checks the shape of a tree while it writes. Here the grammar of the trees that it accepts
is stated by itself, without a width and without any text, together with the first fault that a tree
outside the grammar has in document order.
-/
namespace CanonMark.Layout

/-- An inline node that has markup. A run is compilable if each of its nodes is. -/
inductive Compilable : Node → Prop where
  | text (l cs) : Compilable (.mk .text l cs)
  | code (l cs) : Compilable (.mk .code l cs)
  | image (d t l cs) : Compilable (.mk (.image d t) l cs)
  | emphasis (l) {cs} : cs ≠ [] → (∀ c ∈ cs, c.isText) → Compilable (.mk .emphasis l cs)
  | strong (l) {cs} : cs ≠ [] → (∀ c ∈ cs, c.isText) → Compilable (.mk .strong l cs)
  | link (d t l) {cs} : (∀ c ∈ cs, ¬ c.kind.isLink) → (∀ c ∈ cs, Compilable c) →
      Compilable (.mk (.link d t) l cs)

inductive Quotable : Node → Prop where
  | paragraph (l) {cs} : (∀ c ∈ cs, Compilable c) → Quotable (.mk .paragraph l cs)
  | quote (l) {cs} : (∀ c ∈ cs, Quotable c) → Quotable (.mk .quote l cs)

inductive Listable : Node → Prop where
  | plain (l p) {cs} : (∀ c ∈ cs, Compilable c) → Listable (.mk .item l [.mk .paragraph p cs])
  | nested (l p ordered m) {cs items} : (∀ c ∈ cs, Compilable c) → (∀ i ∈ items, Listable i) →
      Listable (.mk .item l [.mk .paragraph p cs, .mk (.list ordered) m items])

inductive CellShape : Node → Prop where
  | mk (l) {cs} : (∀ c ∈ cs, Compilable c) → CellShape (.mk .tableCell l cs)

inductive RowShape (columns : Nat) : Node → Prop where
  | mk (l) {cells} : cells.length = columns → (∀ c ∈ cells, CellShape c) →
      RowShape columns (.mk .tableRow l cells)

/-- The children of a table: a head of one row and a body of rows of the same length. -/
inductive TableShape : List Node → Prop where
  | mk (l m columns) {header rows} : 1 ≤ columns → RowShape columns header → rows ≠ [] →
      (∀ r ∈ rows, RowShape columns r) →
      TableShape [.mk .tableHead l [header], .mk .tableBody m rows]

inductive Renderable : Node → Prop where
  | heading (level l) {cs} : (∀ c ∈ cs, c.isText) → Renderable (.mk (.heading level) l cs)
  | paragraph (l) {cs} : (∀ c ∈ cs, Compilable c) → Renderable (.mk .paragraph l cs)
  | codeBlock (fenced length info l cs) : Renderable (.mk (.codeBlock fenced length info) l cs)
  | quote (l) {cs} : (∀ c ∈ cs, Quotable c) → Renderable (.mk .quote l cs)
  | list (ordered l) {items} : (∀ i ∈ items, Listable i) → Renderable (.mk (.list ordered) l items)
  | table (alignments l) {cs} : TableShape cs → Renderable (.mk (.table alignments) l cs)

/-- A document of renderable blocks, or one such block by itself. -/
inductive Acceptable : Node → Prop where
  | document (l) {cs} : (∀ c ∈ cs, Renderable c) → Acceptable (.mk .document l cs)
  | block {n} : Renderable n → Acceptable n

def emphasisFault (cs : List Node) : Option LayoutError :=
  if cs.isEmpty || !cs.all Node.isText then some .malformedEmphasis else none

mutual
def inlineFault : Node → Option LayoutError
  | .mk .text _ _ => none
  | .mk .code _ _ => none
  | .mk (.image _ _) _ _ => none
  | .mk .emphasis _ cs => emphasisFault cs
  | .mk .strong _ cs => emphasisFault cs
  | .mk (.link _ _) _ cs => if cs.any (·.kind.isLink) then some .nestedLink else runFault cs
  | .mk k _ _ => some (.unsupported k)

def runFault : List Node → Option LayoutError
  | [] => none
  | n :: ns => (inlineFault n).or (runFault ns)
end

def headingFault (cs : List Node) : Option LayoutError :=
  (cs.find? (!·.isText)).map fun c => .headingContent c.kind

mutual
def quotedFault : Node → Option LayoutError
  | .mk .paragraph _ cs => runFault cs
  | .mk .quote _ cs => quotedFaults cs
  | .mk k _ _ => some (.quoteContent k)

def quotedFaults : List Node → Option LayoutError
  | [] => none
  | n :: ns => (quotedFault n).or (quotedFaults ns)
end

mutual
def itemFault : Node → Option LayoutError
  | .mk .item _ (.mk .paragraph _ cs :: rest) => (runFault cs).or (restFault rest)
  | .mk .item _ [] => some (.itemShape none)
  | .mk .item _ (n :: _) => some (.itemShape (some n.kind))
  | n => some (.listChild n.kind)

def restFault : List Node → Option LayoutError
  | [] => none
  | [.mk (.list _) _ items] => itemFaults items
  | n :: _ => some (.itemShape (some n.kind))

def itemFaults : List Node → Option LayoutError
  | [] => none
  | n :: ns => (itemFault n).or (itemFaults ns)
end

def cellFault : Node → Option LayoutError
  | .mk .tableCell _ cs => runFault cs
  | _ => some (.invalidTable .rowContent)

/-- The number of cells is checked before any cell is. -/
def rowFault (columns index : Nat) : Node → Option LayoutError
  | .mk .tableRow _ cells =>
    if cells.length < columns then some (.rowTooShort index columns cells.length)
    else if cells.length > columns then some (.rowTooLong index columns cells.length)
    else cells.findSome? cellFault
  | _ => some (.invalidTable .sectionContent)

def rowsFault (columns index : Nat) : List Node → Option LayoutError
  | [] => none
  | row :: rows => (rowFault columns index row).or (rowsFault columns (index + 1) rows)

def tableFault (cs : List Node) : Option LayoutError :=
  match tableParts cs with
  | .error e => some e
  | .ok (header, rows) =>
    let columns := header.children.length
    (rowFault columns 0 header).or (rowsFault columns 1 rows)

def blockFault : Node → Option LayoutError
  | .mk (.heading _) _ cs => headingFault cs
  | .mk .paragraph _ cs => runFault cs
  | .mk (.codeBlock _ _ _) _ _ => none
  | .mk .quote _ cs => quotedFaults cs
  | .mk (.list _) _ items => itemFaults items
  | .mk (.table _) _ cs => tableFault cs
  | .mk k _ _ => some (.unsupported k)

def documentFault : Node → Option LayoutError
  | .mk .document _ cs => cs.findSome? blockFault
  | n => blockFault n

-- Whether a computation fails, and how, is all that is left of it when its text is forgotten.
def errorOf : Except LayoutError α → Option LayoutError
  | .ok _ => none
  | .error e => some e

@[simp] theorem errorOf_ok (a : α) : errorOf (.ok a) = none := rfl

@[simp] theorem errorOf_pure (a : α) : errorOf (pure a) = none := rfl

@[simp] theorem errorOf_error (e : LayoutError) : errorOf (.error e : Except _ α) = some e := rfl

@[simp] theorem errorOf_map (f : α → β) (x : Except LayoutError α) :
    errorOf (f <$> x) = errorOf x := by
  cases x <;> rfl

theorem errorOf_eq_none_iff {x : Except LayoutError α} :
    errorOf x = none ↔ ∃ a, x = .ok a := by
  cases x <;> simp

theorem errorOf_eq_some_iff {x : Except LayoutError α} {e : LayoutError} :
    errorOf x = some e ↔ x = .error e := by
  cases x <;> simp

theorem errorOf_bind {x : Except LayoutError α} {f : α → Except LayoutError β}
    {g : Option LayoutError} (h : ∀ a, errorOf (f a) = g) :
    errorOf (x >>= f) = (errorOf x).or g := by
  cases x with
  | ok a => exact h a
  | error e => rfl

theorem delimited_fault (d : Text) (cs : List Node) :
    errorOf (delimited d cs) = emphasisFault cs := by
  unfold delimited emphasisFault
  split <;> rfl

mutual
theorem compileNode_fault (before : Bool) : ∀ n, errorOf (compileNode before n) = inlineFault n
  | .mk k l cs => by
    cases k with
    | emphasis => exact delimited_fault _ cs
    | strong => exact delimited_fault _ cs
    | link d t =>
      simp only [compileNode, inlineFault]
      split
      · rfl
      · have h := compile_fault cs
        cases hc : compile cs <;> simpa [hc] using h
    | _ => rfl

theorem compile_fault : ∀ ns, errorOf (compile ns) = runFault ns
  | [] => rfl
  | n :: ns => by
    have hn := compileNode_fault (ns.head?.any (·.kind.isLink)) n
    have hs := compile_fault ns
    simp only [compile, runFault, ← hn, ← hs]
    cases compileNode (ns.head?.any (·.kind.isLink)) n with
    | error e => rfl
    | ok ms => cases compile ns <;> rfl
end

theorem inlineTokens_fault (ns : List Node) : errorOf (inlineTokens ns) = runFault ns := by
  simp [inlineTokens, compile_fault]

theorem inlineText_fault (ns : List Node) : errorOf (inlineText ns) = runFault ns := by
  simp [inlineText, compile_fault]

theorem headingText_fault (cs : List Node) : errorOf (headingText cs) = headingFault cs := by
  induction cs with
  | nil => rfl
  | cons c cs ih =>
    by_cases h : c.isText <;> simp [headingText, headingFault, h] at ih ⊢
    exact ih

theorem heading_fault (level : Nat) (cs : List Node) :
    errorOf (heading level cs) = headingFault cs := by
  unfold heading
  rw [errorOf_bind fun _ => errorOf_pure _, headingText_fault, Option.or_none]

theorem paragraph_fault (w : Flow) (cs : List Node) :
    errorOf (paragraph w cs) = runFault cs := by
  unfold paragraph
  rw [errorOf_bind fun _ => errorOf_pure _, inlineTokens_fault, Option.or_none]

mutual
theorem quoteChild_fault (q : Flow) : ∀ n, errorOf (quoteChild q n) = quotedFault n
  | .mk k l cs => by
    cases k with
    | paragraph => exact paragraph_fault q cs
    | quote =>
      cases cs with
      | nil => rfl
      | cons c cs =>
        have h := quoteChildren_fault (q.nested quoteMargin) true (c :: cs)
        simp only [quoteChild, quotedFault]
        rw [errorOf_bind fun _ => errorOf_pure _, h, Option.or_none]
    | _ => rfl

theorem quoteChildren_fault (q : Flow) (first : Bool) :
    ∀ ns, errorOf (quoteChildren q first ns) = quotedFaults ns
  | [] => rfl
  | n :: ns => by
    simp only [quoteChildren, quotedFaults]
    rw [errorOf_bind, quoteChild_fault]
    intro child
    rw [errorOf_bind fun _ => errorOf_pure _, quoteChildren_fault, Option.or_none]
end

mutual
theorem listItem_fault (w : Flow) (marker : Text) :
    ∀ n, errorOf (listItem w marker n) = itemFault n
  | .mk k l cs => by
    cases k with
    | item =>
      match cs with
      | [] => rfl
      | .mk first p run :: rest =>
        cases first with
        | paragraph =>
          simp only [listItem, itemFault]
          rw [errorOf_bind, paragraph_fault]
          intro text
          rw [errorOf_bind fun _ => errorOf_pure _, itemRest_fault, Option.or_none]
        | _ => rfl
    | _ => rfl

theorem itemRest_fault (w : Flow) : ∀ ns, errorOf (itemRest w ns) = restFault ns
  | [] => rfl
  | [.mk k l items] => by
    cases k with
    | list ordered => exact listItems_fault w ordered 0 items
    | _ => rfl
  | .mk k l items :: m :: ns => by cases k <;> rfl

theorem listItems_fault (w : Flow) (ordered : Bool) (index : Nat) :
    ∀ ns, errorOf (listItems w ordered index ns) = itemFaults ns
  | [] => rfl
  | n :: ns => by
    simp only [listItems, itemFaults]
    rw [errorOf_bind, listItem_fault]
    intro text
    rw [errorOf_bind fun _ => errorOf_pure _, listItems_fault, Option.or_none]
end

theorem compileCell_fault (n : Node) : errorOf (compileCell n) = cellFault n := by
  obtain ⟨k, l, cs⟩ := n
  cases k with
  | tableCell => simp [compileCell, cellFault, inlineText_fault]
  | _ => rfl

theorem cells_fault (cells : List Node) :
    errorOf (cells.mapM compileCell) = cells.findSome? cellFault := by
  induction cells with
  | nil => rfl
  | cons c cs ih =>
    rw [List.mapM_cons, errorOf_bind (g := cs.findSome? cellFault), compileCell_fault]
    · cases h : cellFault c <;> simp [h]
    · intro text
      rw [errorOf_bind fun _ => errorOf_pure _, ih, Option.or_none]

theorem compileRow_fault (columns index : Nat) (n : Node) :
    errorOf (compileRow columns index n) = rowFault columns index n := by
  obtain ⟨k, l, cells⟩ := n
  cases k with
  | tableRow =>
    simp only [compileRow, rowFault]
    split
    · rfl
    · split
      · rfl
      · exact cells_fault cells
  | _ => rfl

theorem compileRows_fault (columns index : Nat) (rows : List Node) :
    errorOf (compileRows columns index rows) = rowsFault columns index rows := by
  induction rows generalizing index with
  | nil => rfl
  | cons row rows ih =>
    simp only [compileRows, rowsFault]
    rw [errorOf_bind, compileRow_fault]
    intro cells
    rw [errorOf_bind fun _ => errorOf_pure _, ih, Option.or_none]

theorem table_fault (n : Node) : errorOf (table n) = tableFault n.children := by
  unfold table tableFault
  cases tableParts n.children with
  | error e => rfl
  | ok parts =>
    obtain ⟨header, rows⟩ := parts
    change errorOf (compileRow _ 0 header >>= _) = _
    rw [errorOf_bind, compileRow_fault]
    intro cells
    rw [errorOf_bind fun _ => errorOf_pure _, compileRows_fault, Option.or_none]

theorem block_fault (cols : Nat) (n : Node) : errorOf (block cols n) = blockFault n := by
  obtain ⟨k, l, cs⟩ := n
  cases k with
  | heading level => exact heading_fault level cs
  | paragraph =>
    simp only [block, blockFault]
    rw [errorOf_bind fun _ => errorOf_pure _, paragraph_fault, Option.or_none]
  | quote =>
    simp only [block, blockFault]
    rw [errorOf_bind fun _ => errorOf_pure _, quoteChild_fault, Option.or_none, quotedFault]
  | list ordered =>
    simp only [block, blockFault]
    rw [errorOf_bind fun _ => errorOf_pure _, listItems_fault, Option.or_none]
  | table alignments => exact table_fault _
  | _ => rfl

theorem blocks_fault (cols : Nat) (ns : List Node) :
    errorOf (blocks cols ns) = ns.findSome? blockFault := by
  induction ns with
  | nil => rfl
  | cons n ns ih =>
    rw [blocks, errorOf_bind (g := ns.findSome? blockFault), block_fault]
    · cases h : blockFault n <;> simp [h]
    · intro text
      rw [errorOf_bind fun _ => errorOf_pure _, ih, Option.or_none]

theorem document_fault (options : Options) (root : Node) :
    errorOf (document options root) = documentFault root := by
  obtain ⟨k, l, cs⟩ := root
  unfold document
  rw [errorOf_map]
  cases k with
  | document => exact blocks_fault options.cols cs
  | _ => exact block_fault options.cols _

theorem emphasisFault_none {cs : List Node} :
    emphasisFault cs = none ↔ cs ≠ [] ∧ ∀ c ∈ cs, c.isText := by
  unfold emphasisFault
  cases cs <;> simp

mutual
theorem inlineFault_none : ∀ n, inlineFault n = none ↔ Compilable n
  | .mk k l cs => by
    cases k with
    | text => exact ⟨fun _ => .text l cs, fun _ => rfl⟩
    | code => exact ⟨fun _ => .code l cs, fun _ => rfl⟩
    | image d t => exact ⟨fun _ => .image d t l cs, fun _ => rfl⟩
    | emphasis =>
      refine emphasisFault_none.trans ⟨fun h => .emphasis l h.1 h.2, fun h => ?_⟩
      cases h with
      | emphasis _ hne htext => exact ⟨hne, htext⟩
    | strong =>
      refine emphasisFault_none.trans ⟨fun h => .strong l h.1 h.2, fun h => ?_⟩
      cases h with
      | strong _ hne htext => exact ⟨hne, htext⟩
    | link d t =>
      have hrun := runFault_none cs
      by_cases h : cs.any (·.kind.isLink)
      · simp only [inlineFault, h, if_true, reduceCtorEq, false_iff]
        intro hc
        cases hc with
        | link _ _ _ hlink _ =>
          obtain ⟨c, hc, hl⟩ := List.any_eq_true.mp h
          exact hlink c hc hl
      · simp only [inlineFault, h, if_false, Bool.false_eq_true, hrun]
        have hlink : ∀ c ∈ cs, ¬ c.kind.isLink :=
          fun c hc hl => h (List.any_eq_true.mpr ⟨c, hc, hl⟩)
        refine ⟨fun hr => .link d t l hlink hr, fun hr => ?_⟩
        cases hr with
        | link _ _ _ _ hr => exact hr
    | _ => constructor <;> intro h <;> cases h

theorem runFault_none : ∀ ns, runFault ns = none ↔ ∀ n ∈ ns, Compilable n
  | [] => by simp [runFault]
  | n :: ns => by
    simp only [runFault, Option.or_eq_none_iff, inlineFault_none n, runFault_none ns,
      List.forall_mem_cons]
end

theorem headingFault_none {cs : List Node} :
    headingFault cs = none ↔ ∀ c ∈ cs, c.isText := by
  simp [headingFault]

mutual
theorem quotedFault_none : ∀ n, quotedFault n = none ↔ Quotable n
  | .mk k l cs => by
    cases k with
    | paragraph =>
      refine (runFault_none cs).trans ⟨fun h => .paragraph l h, fun h => ?_⟩
      cases h with
      | paragraph _ h => exact h
    | quote =>
      refine (quotedFaults_none cs).trans ⟨fun h => .quote l h, fun h => ?_⟩
      cases h with
      | quote _ h => exact h
    | _ => constructor <;> intro h <;> cases h

theorem quotedFaults_none : ∀ ns, quotedFaults ns = none ↔ ∀ n ∈ ns, Quotable n
  | [] => by simp [quotedFaults]
  | n :: ns => by
    simp only [quotedFaults, Option.or_eq_none_iff, quotedFault_none n, quotedFaults_none ns,
      List.forall_mem_cons]
end

mutual
theorem itemFault_none : ∀ n, itemFault n = none ↔ Listable n
  | .mk k l cs => by
    cases k with
    | item =>
      match cs with
      | [] => constructor <;> intro h <;> cases h
      | .mk first p run :: rest =>
        cases first with
        | paragraph =>
          simp only [itemFault, Option.or_eq_none_iff, runFault_none run, restFault_none rest]
          constructor
          · rintro ⟨hrun, rfl | ⟨ordered, m, items, rfl, hitems⟩⟩
            · exact .plain l p hrun
            · exact .nested l p ordered m hrun hitems
          · intro h
            cases h with
            | plain _ _ hrun => exact ⟨hrun, Or.inl rfl⟩
            | nested _ _ _ _ hrun hitems => exact ⟨hrun, Or.inr ⟨_, _, _, rfl, hitems⟩⟩
        | _ => constructor <;> intro h <;> cases h
    | _ => constructor <;> intro h <;> cases h

theorem restFault_none : ∀ ns, restFault ns = none ↔
    ns = [] ∨ ∃ ordered l items, ns = [.mk (.list ordered) l items] ∧ ∀ i ∈ items, Listable i
  | [] => by simp [restFault]
  | [.mk k l items] => by
    cases k with
    | list ordered =>
      refine (itemFaults_none items).trans ⟨fun h => Or.inr ⟨_, _, _, rfl, h⟩, ?_⟩
      rintro (h | ⟨_, _, _, h, hitems⟩)
      · simp at h
      · cases h
        exact hitems
    | _ => simp [restFault]
  | .mk k l items :: m :: ns => by cases k <;> simp [restFault]

theorem itemFaults_none : ∀ ns, itemFaults ns = none ↔ ∀ n ∈ ns, Listable n
  | [] => by simp [itemFaults]
  | n :: ns => by
    simp only [itemFaults, Option.or_eq_none_iff, itemFault_none n, itemFaults_none ns,
      List.forall_mem_cons]
end

theorem cellFault_none (n : Node) : cellFault n = none ↔ CellShape n := by
  obtain ⟨k, l, cs⟩ := n
  cases k with
  | tableCell =>
    refine (runFault_none cs).trans ⟨fun h => .mk l h, fun h => ?_⟩
    cases h with
    | mk _ h => exact h
  | _ => constructor <;> intro h <;> cases h

theorem rowFault_none (columns index : Nat) (n : Node) :
    rowFault columns index n = none ↔ RowShape columns n := by
  obtain ⟨k, l, cells⟩ := n
  cases k with
  | tableRow =>
    have hcells : cells.findSome? cellFault = none ↔ ∀ c ∈ cells, CellShape c := by
      simp only [List.findSome?_eq_none_iff, cellFault_none]
    have hrow : RowShape columns (.mk .tableRow l cells) ↔
        cells.length = columns ∧ ∀ c ∈ cells, CellShape c := by
      refine ⟨fun h => ?_, fun h => .mk l h.1 h.2⟩
      cases h with
      | mk _ hlen hc => exact ⟨hlen, hc⟩
    rw [hrow, ← hcells, rowFault]
    split
    · simp; omega
    · split
      · simp; omega
      · simp; omega
  | _ => constructor <;> intro h <;> cases h

theorem rowsFault_none (columns index : Nat) (rows : List Node) :
    rowsFault columns index rows = none ↔ ∀ r ∈ rows, RowShape columns r := by
  induction rows generalizing index with
  | nil => simp [rowsFault]
  | cons row rows ih =>
    simp only [rowsFault, Option.or_eq_none_iff, rowFault_none, ih, List.forall_mem_cons]

theorem tableParts_ok {cs rows : List Node} {header : Node} :
    tableParts cs = .ok (header, rows) ↔
      ∃ l m, cs = [.mk .tableHead l [header], .mk .tableBody m rows] ∧
        header.kind = .tableRow ∧ header.children ≠ [] ∧ rows ≠ [] := by
  constructor
  · intro h
    match cs with
    | [] => simp [tableParts] at h
    | [_] => simp [tableParts] at h
    | _ :: _ :: _ :: _ => simp [tableParts] at h
    | [.mk hk hl heads, .mk bk bl body] =>
      simp only [tableParts, Node.kind, Node.children, bne_iff_ne, ne_eq, ite_not] at h
      split at h
      · split at h
        · subst hk bk
          match heads with
          | [] => simp at h
          | _ :: _ :: _ => simp at h
          | [.mk k l cells] =>
            simp only [List.isEmpty_iff] at h
            split at h
            · split at h
              · simp at h
              · split at h
                · simp at h
                · subst k
                  obtain ⟨rfl, rfl⟩ := Prod.mk.inj (Except.ok.inj h)
                  exact ⟨hl, bl, rfl, rfl, ‹_›, ‹_›⟩
            · simp at h
        · simp at h
      · simp at h
  · rintro ⟨l, m, rfl, hkind, hcells, hrows⟩
    simp [tableParts, Node.kind, Node.children] at hkind hcells ⊢
    simp [hkind, hcells, hrows]

theorem tableFault_none (cs : List Node) : tableFault cs = none ↔ TableShape cs := by
  constructor
  · intro h
    unfold tableFault at h
    split at h
    · simp at h
    · next header rows hparts =>
      obtain ⟨l, m, rfl, _, hcells, hrows⟩ := tableParts_ok.mp hparts
      simp only [Option.or_eq_none_iff, rowFault_none, rowsFault_none] at h
      have hpos : 1 ≤ header.children.length := List.length_pos_iff.mpr hcells
      exact .mk l m _ hpos h.1 hrows h.2
  · intro h
    cases h with
    | @mk l m columns _ rows hpos hheader hrows hbody =>
      cases hheader with
      | @mk k cells hlen hcells =>
        have hne : cells ≠ [] := List.length_pos_iff.mp (hlen ▸ hpos)
        have hparts : tableParts [.mk .tableHead l [.mk .tableRow k cells], .mk .tableBody m rows] =
            .ok (.mk .tableRow k cells, rows) :=
          tableParts_ok.mpr ⟨l, m, rfl, rfl, hne, hrows⟩
        simp only [tableFault, hparts, Node.children, hlen]
        rw [(rowFault_none columns 0 _).mpr (.mk k hlen hcells),
          (rowsFault_none columns 1 _).mpr hbody]
        rfl

theorem blockFault_none (n : Node) : blockFault n = none ↔ Renderable n := by
  obtain ⟨k, l, cs⟩ := n
  cases k with
  | heading level =>
    refine headingFault_none.trans ⟨fun h => .heading level l h, fun h => ?_⟩
    cases h with
    | heading _ _ h => exact h
  | paragraph =>
    refine (runFault_none cs).trans ⟨fun h => .paragraph l h, fun h => ?_⟩
    cases h with
    | paragraph _ h => exact h
  | codeBlock fenced length info => exact ⟨fun _ => .codeBlock fenced length info l cs, fun _ => rfl⟩
  | quote =>
    refine (quotedFaults_none cs).trans ⟨fun h => .quote l h, fun h => ?_⟩
    cases h with
    | quote _ h => exact h
  | list ordered =>
    refine (itemFaults_none cs).trans ⟨fun h => .list ordered l h, fun h => ?_⟩
    cases h with
    | list _ _ h => exact h
  | table alignments =>
    refine (tableFault_none cs).trans ⟨fun h => .table alignments l h, fun h => ?_⟩
    cases h with
    | table _ _ h => exact h
  | _ => constructor <;> intro h <;> cases h

theorem documentFault_none (root : Node) : documentFault root = none ↔ Acceptable root := by
  obtain ⟨k, l, cs⟩ := root
  by_cases hk : k = .document
  · subst k
    simp only [documentFault, List.findSome?_eq_none_iff, blockFault_none]
    refine ⟨fun h => .document l h, fun h => ?_⟩
    cases h with
    | document _ h => exact h
    | block h => cases h
  · have hfault : documentFault (.mk k l cs) = blockFault (.mk k l cs) := by
      cases k with
      | document => exact absurd rfl hk
      | _ => rfl
    rw [hfault, blockFault_none]
    refine ⟨.block, fun h => ?_⟩
    cases h with
    | document _ _ => exact absurd rfl hk
    | block h => exact h

instance (n : Node) : Decidable (Renderable n) := decidable_of_iff _ (blockFault_none n)

instance (root : Node) : Decidable (Acceptable root) := decidable_of_iff _ (documentFault_none root)

theorem acceptable_of_ok {options : Options} {root : Node} {t : Text}
    (h : document options root = .ok t) : Acceptable root := by
  rw [← documentFault_none, ← document_fault options, h]
  rfl

/-- At every width the layout accepts exactly the trees of the grammar. Any other tree fails with
its first fault, which no width changes. -/
theorem document_accepts_exactly_grammar (options : Options) (root : Node) :
    ((∃ t, document options root = .ok t) ↔ Acceptable root) ∧
      ∀ e, document options root = .error e ↔ documentFault root = some e := by
  refine ⟨?_, fun e => ?_⟩
  · rw [← errorOf_eq_none_iff, document_fault, documentFault_none]
  · rw [← errorOf_eq_some_iff, document_fault]

example : Acceptable (.branch .document [.branch .quote [.branch .quote []]]) := by decide

end CanonMark.Layout
