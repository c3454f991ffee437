import CanonMark.Proofs.Document.Reshaping
import CanonMark.Proofs.Layout.Grammar

/-! # Trees that meet the demands of the layout

The layout refuses lists that hold something else than items, and tables whose sections or rows are
not as it expects them. Events that nest their tags properly give trees in which every list and
every table, at any depth, is as demanded; so no such refusal is ever met. Only a table without body
rows can still be refused.
-/
namespace CanonMark

def Passage.tag? : Passage → Option Tag
  | .leaf _ => none
  | .enclosed tag _ => some tag

/-- What may stand directly between the events of a tag. -/
def Tag.Holds : Tag → Forest → Prop
  | .list _, inner => ∀ p ∈ inner, p.tag? = some .item
  | .table _, inner => ∃ cells rows, inner = .enclosed .tableHead cells :: rows ∧ 1 ≤ cells.length ∧
      ∀ row ∈ rows, ∃ own : Forest, row = .enclosed .tableRow own ∧ own.length = cells.length
  | .tableHead, inner => ∀ p ∈ inner, p.tag? = some .tableCell
  | .tableRow, inner => ∀ p ∈ inner, p.tag? = some .tableCell
  | _, _ => True

/-- A passage with tags that hold what they may, at any depth. -/
inductive Passage.WellNested : Passage → Prop where
  | leaf (l : Leaf) : WellNested (.leaf l)
  | enclosed {tag : Tag} {inner : List Passage} : tag.Holds inner → (∀ p ∈ inner, WellNested p) →
      WellNested (.enclosed tag inner)

@[simp] theorem wellNested_leaf (l : Leaf) : (Passage.leaf l).WellNested := .leaf l

@[simp] theorem wellNested_enclosed {tag : Tag} {inner : Forest} :
    (Passage.enclosed tag inner).WellNested ↔ tag.Holds inner ∧ ∀ p ∈ inner, p.WellNested := by
  refine ⟨?_, fun h => .enclosed h.1 h.2⟩
  rintro (_ | ⟨hholds, hinner⟩)
  exact ⟨hholds, hinner⟩

/-- Errors that find fault with the shape of a list or a table; that a table has no body rows is
not one of them. -/
def LayoutError.blamesShape : LayoutError → Bool
  | .listChild _ => true
  | .rowTooShort _ _ _ => true
  | .rowTooLong _ _ _ => true
  | .invalidTable fault => fault != .noRows
  | _ => false

/-- The children that a node of this kind should have. -/
def Kind.Demands : Kind → List Node → Prop
  | .list _, cs => ∀ c ∈ cs, c.kind = .item
  | .table _, cs => ∃ l k m cells rows,
      cs = [.mk .tableHead l [.mk .tableRow k cells], .mk .tableBody m rows] ∧ cells ≠ [] ∧
        (∀ c ∈ cells, c.kind = .tableCell) ∧
        ∀ row ∈ rows, row.kind = .tableRow ∧ row.children.length = cells.length ∧
          ∀ c ∈ row.children, c.kind = .tableCell
  | _, _ => True

inductive Tidy : Node → Prop where
  | mk {k : Kind} (l : Text) {cs : List Node} : k.Demands cs → (∀ c ∈ cs, Tidy c) →
      Tidy (.mk k l cs)

namespace Layout

def Spares (fault : Option LayoutError) : Prop := ∀ e ∈ fault, e.blamesShape = false

theorem spares_none : Spares none := by
  intro e he
  cases he

theorem spares_some {e : LayoutError} (h : e.blamesShape = false) : Spares (some e) := by
  intro e' he
  rwa [← Option.some.inj he]

theorem Spares.or {a b : Option LayoutError} (ha : Spares a) (hb : Spares b) : Spares (a.or b) := by
  cases a with
  | none => exact hb
  | some e => exact ha

theorem spares_findSome? {f : α → Option LayoutError} {l : List α} (h : ∀ a ∈ l, Spares (f a)) :
    Spares (l.findSome? f) := by
  intro e he
  obtain ⟨a, ha, hf⟩ := List.exists_of_findSome?_eq_some he
  exact h a ha e hf

theorem emphasisFault_spares (cs : List Node) : Spares (emphasisFault cs) := by
  unfold emphasisFault
  split
  · exact spares_some rfl
  · exact spares_none

mutual
theorem inlineFault_spares : ∀ n, Spares (inlineFault n)
  | .mk k l cs => by
    cases k with
    | text => exact spares_none
    | code => exact spares_none
    | image destination title => exact spares_none
    | emphasis => exact emphasisFault_spares cs
    | strong => exact emphasisFault_spares cs
    | link destination title =>
      rw [inlineFault]
      split
      · exact spares_some rfl
      · exact runFault_spares cs
    | _ => exact spares_some rfl

theorem runFault_spares : ∀ ns, Spares (runFault ns)
  | [] => spares_none
  | n :: ns => (inlineFault_spares n).or (runFault_spares ns)
end

theorem headingFault_spares (cs : List Node) : Spares (headingFault cs) := by
  intro e he
  obtain ⟨c, -, rfl⟩ := Option.map_eq_some_iff.mp he
  rfl

mutual
theorem quotedFault_spares : ∀ n, Spares (quotedFault n)
  | .mk k l cs => by
    cases k with
    | paragraph => exact runFault_spares cs
    | quote => exact quotedFaults_spares cs
    | _ => exact spares_some rfl

theorem quotedFaults_spares : ∀ ns, Spares (quotedFaults ns)
  | [] => spares_none
  | n :: ns => (quotedFault_spares n).or (quotedFaults_spares ns)
end

mutual
theorem itemFault_spares : ∀ n, Tidy n → n.kind = .item → Spares (itemFault n)
  | .mk k l cs, h, hk => by
    obtain rfl : k = .item := hk
    cases h with
    | mk _ _ hcs =>
      match cs with
      | [] => exact spares_some rfl
      | .mk first p run :: rest =>
        cases first with
        | paragraph =>
          exact (runFault_spares run).or
            (restFault_spares rest fun c hc => hcs c (List.mem_cons_of_mem _ hc))
        | _ => exact spares_some rfl

theorem restFault_spares : ∀ ns, (∀ n ∈ ns, Tidy n) → Spares (restFault ns)
  | [], _ => spares_none
  | [.mk k l items], h => by
    cases k with
    | list ordered =>
      cases h _ List.mem_cons_self with
      | mk _ hitems htidy =>
        exact itemFaults_spares items fun i hi => ⟨htidy i hi, hitems i hi⟩
    | _ => exact spares_some rfl
  | .mk k l items :: m :: ns, _ => by cases k <;> exact spares_some rfl

theorem itemFaults_spares : ∀ ns, (∀ n ∈ ns, Tidy n ∧ n.kind = .item) → Spares (itemFaults ns)
  | [], _ => spares_none
  | n :: ns, h => by
    obtain ⟨htidy, hitem⟩ := h n List.mem_cons_self
    exact (itemFault_spares n htidy hitem).or
      (itemFaults_spares ns fun m hm => h m (List.mem_cons_of_mem _ hm))
end

theorem cellFault_spares {c : Node} (h : c.kind = .tableCell) : Spares (cellFault c) := by
  obtain ⟨k, l, cs⟩ := c
  obtain rfl : k = .tableCell := h
  exact runFault_spares cs

theorem rowFault_spares (row : Node) {columns : Nat} (hkind : row.kind = .tableRow)
    (hlength : row.children.length = columns) (hcells : ∀ c ∈ row.children, c.kind = .tableCell)
    (index : Nat) : Spares (rowFault columns index row) := by
  obtain ⟨k, l, cells⟩ := row
  obtain rfl : k = .tableRow := hkind
  change cells.length = columns at hlength
  rw [rowFault, if_neg (by omega), if_neg (by omega)]
  exact spares_findSome? fun c hc => cellFault_spares (hcells c hc)

theorem rowsFault_spares {columns : Nat} {rows : List Node}
    (h : ∀ row ∈ rows, row.kind = .tableRow ∧ row.children.length = columns ∧
      ∀ c ∈ row.children, c.kind = .tableCell) (index : Nat) :
    Spares (rowsFault columns index rows) := by
  induction rows generalizing index with
  | nil => exact spares_none
  | cons row rows ih =>
    obtain ⟨hkind, hlength, hcells⟩ := h row List.mem_cons_self
    exact (rowFault_spares row hkind hlength hcells index).or
      (ih (fun r hr => h r (List.mem_cons_of_mem _ hr)) (index + 1))

theorem tableFault_spares {alignments : List Alignment} {cs : List Node}
    (h : (Kind.table alignments).Demands cs) : Spares (tableFault cs) := by
  obtain ⟨l, k, m, cells, rows, rfl, hne, hcells, hrows⟩ := h
  by_cases hempty : rows = []
  · subst hempty
    have hparts : tableParts [.mk .tableHead l [.mk .tableRow k cells], .mk .tableBody m []] =
        .error (.invalidTable .noRows) := by
      simp [tableParts, Node.kind, Node.children, hne]
    rw [tableFault, hparts]
    exact spares_some rfl
  · have hparts : tableParts [.mk .tableHead l [.mk .tableRow k cells], .mk .tableBody m rows] =
        .ok (.mk .tableRow k cells, rows) :=
      tableParts_ok.mpr ⟨l, m, rfl, rfl, hne, hempty⟩
    rw [tableFault, hparts]
    exact (rowFault_spares (.mk .tableRow k cells) rfl rfl hcells 0).or (rowsFault_spares hrows 1)

theorem blockFault_spares {n : Node} (h : Tidy n) : Spares (blockFault n) := by
  cases h with
  | @mk k l cs hdemands htidy =>
    cases k with
    | heading level => exact headingFault_spares cs
    | paragraph => exact runFault_spares cs
    | codeBlock fenced length info => exact spares_none
    | quote => exact quotedFaults_spares cs
    | list ordered => exact itemFaults_spares cs fun i hi => ⟨htidy i hi, hdemands i hi⟩
    | table alignments => exact tableFault_spares hdemands
    | _ => exact spares_some rfl

theorem documentFault_spares {n : Node} (h : Tidy n) : Spares (documentFault n) := by
  have hblock := blockFault_spares h
  cases h with
  | @mk k l cs hdemands htidy =>
    cases k with
    | document => exact spares_findSome? fun c hc => blockFault_spares (htidy c hc)
    | _ => exact hblock

end Layout

theorem tidy_leaf (l : Leaf) : Tidy l.node := by
  cases l <;> exact .mk _ trivial (by simp)

theorem mergeTexts_tidy {ns : List Node} (h : ∀ n ∈ ns, Tidy n) : ∀ n ∈ mergeTexts ns, Tidy n := by
  intro n hn
  obtain hn | ⟨run, -, rfl⟩ := mem_replaceRuns hn
  · exact h n hn
  · exact .mk _ trivial (by simp)

theorem arrange_tidy (k : Kind) {ns : List Node} (h : ∀ n ∈ ns, Tidy n) :
    ∀ n ∈ k.arrange ns, Tidy n := by
  intro n hn
  cases k with
  | item =>
    obtain hn | ⟨run, hrun, rfl⟩ := mem_replaceRuns hn
    · exact h n hn
    · exact .mk _ trivial fun c hc => h c (hrun c hc)
  | tableHead =>
    rw [Kind.arrange] at hn
    split at hn
    · rw [List.mem_singleton.mp hn]
      exact .mk _ trivial h
    · exact h n hn
  | table alignments =>
    rcases List.mem_append.mp hn with hn | hn
    · exact h n (List.mem_filter.mp hn).1
    · rw [List.mem_singleton.mp hn]
      exact .mk _ trivial fun c hc => h c (List.mem_filter.mp hc).1
  | _ => exact h n hn

theorem kind_node {p : Passage} {tag : Tag} (h : p.tag? = some tag) : p.node.kind = tag.kind := by
  cases p with
  | leaf l => cases h
  | enclosed tag' inner =>
    obtain rfl := Option.some.inj h
    rfl

/-- Passages with tags are nodes each, and nothing between them is merged. -/
theorem nodes_of_tags {ps : Forest} (h : ∀ p ∈ ps, ∃ tag, p.tag? = some tag) (k : Kind) :
    mergeTexts (Forest.nodes k ps) = ps.map Passage.node := by
  have hnodes : Forest.nodes k ps = ps.map Passage.node := by
    induction ps with
    | nil => rfl
    | cons p ps ih =>
      have hkept : p.absorbed? k = none := by
        cases p with
        | leaf l =>
          obtain ⟨tag, htag⟩ := h _ List.mem_cons_self
          cases htag
        | enclosed tag inner => rfl
      rw [Forest.nodes, hkept, ih fun q hq => h q (List.mem_cons_of_mem _ hq)]
      rfl
  rw [hnodes]
  refine replaceRuns_of_none ?_
  intro n hn
  obtain ⟨p, hp, rfl⟩ := List.mem_map.mp hn
  obtain ⟨tag, htag⟩ := h p hp
  refine beq_eq_false_iff_ne.mpr ?_
  rw [kind_node htag]
  exact kind_ne_text tag

theorem arrange_table (alignments : List Alignment) {head : Node} {rows : List Node}
    (hhead : head.kind ≠ .tableRow) (hrows : ∀ row ∈ rows, row.kind = .tableRow) :
    (Kind.table alignments).arrange (head :: rows) = [head, .branch .tableBody rows] := by
  have hothers : rows.filter (·.kind != .tableRow) = [] :=
    List.filter_eq_nil_iff.mpr fun row hrow => by simp [hrows row hrow]
  have hall : rows.filter (·.kind == .tableRow) = rows :=
    List.filter_eq_self.mpr fun row hrow => by simp [hrows row hrow]
  simp [Kind.arrange, hhead, hothers, hall]

theorem nodes_of_cells {cells : Forest} (h : ∀ p ∈ cells, p.tag? = some .tableCell) (k : Kind) :
    mergeTexts (Forest.nodes k cells) = cells.map Passage.node ∧
      ∀ c ∈ cells.map Passage.node, c.kind = .tableCell := by
  refine ⟨nodes_of_tags (fun p hp => ⟨_, h p hp⟩) k, ?_⟩
  intro c hc
  obtain ⟨p, hp, rfl⟩ := List.mem_map.mp hc
  exact kind_node (h p hp)

theorem node_tableHead {cells : Forest} (h : ∀ p ∈ cells, p.tag? = some .tableCell) :
    (Passage.enclosed .tableHead cells).node = .mk .tableHead (Forest.literal .tableHead cells)
      [.branch .tableRow (cells.map Passage.node)] := by
  obtain ⟨hnodes, hkind⟩ := nodes_of_cells h .tableHead
  have harrange : Kind.tableHead.arrange (cells.map Passage.node) =
      [.branch .tableRow (cells.map Passage.node)] := if_pos hkind
  rw [Passage.node, Tag.kind, hnodes, harrange]

theorem table_demands (alignments : List Alignment) {inner : Forest}
    (h : (Tag.table alignments).Holds inner) (hinner : ∀ p ∈ inner, p.WellNested) :
    (Kind.table alignments).Demands
      ((Kind.table alignments).arrange (mergeTexts (Forest.nodes (.table alignments) inner))) := by
  obtain ⟨cells, rows, rfl, hpos, hrows⟩ := h
  have hcells : ∀ p ∈ cells, p.tag? = some .tableCell :=
    (wellNested_enclosed.mp (hinner _ List.mem_cons_self)).1
  have htags : ∀ p ∈ Passage.enclosed .tableHead cells :: rows, ∃ tag, p.tag? = some tag := by
    intro p hp
    rcases List.mem_cons.mp hp with rfl | hp
    · exact ⟨_, rfl⟩
    · obtain ⟨own, rfl, -⟩ := hrows p hp
      exact ⟨_, rfl⟩
  have hrowKind : ∀ row ∈ rows.map Passage.node, row.kind = .tableRow := by
    intro row hrow
    obtain ⟨p, hp, rfl⟩ := List.mem_map.mp hrow
    obtain ⟨own, rfl, -⟩ := hrows p hp
    rfl
  rw [nodes_of_tags htags, List.map_cons, node_tableHead hcells,
    arrange_table alignments (by simp [Node.kind]) hrowKind]
  refine ⟨_, _, _, _, _, rfl, ?_, (nodes_of_cells hcells .tableHead).2, ?_⟩
  · intro hnil
    rw [List.map_eq_nil_iff.mp hnil] at hpos
    exact absurd hpos (by decide)
  · intro row hrow
    refine ⟨hrowKind row hrow, ?_⟩
    obtain ⟨p, hp, rfl⟩ := List.mem_map.mp hrow
    obtain ⟨own, rfl, hlength⟩ := hrows p hp
    have hown : ∀ q ∈ own, q.tag? = some .tableCell :=
      (wellNested_enclosed.mp (hinner _ (List.mem_cons_of_mem _ hp))).1
    obtain ⟨hnodes, hkind⟩ := nodes_of_cells hown .tableRow
    have hchildren : (Passage.enclosed .tableRow own).node.children = own.map Passage.node := hnodes
    rw [hchildren]
    exact ⟨by simpa using hlength, hkind⟩

/-- What a tag may hold is, once arranged, what the layout demands of its node. -/
theorem demands_of_holds {tag : Tag} {inner : Forest} (h : tag.Holds inner)
    (hinner : ∀ p ∈ inner, p.WellNested) :
    tag.kind.Demands (tag.kind.arrange (mergeTexts (Forest.nodes tag.kind inner))) := by
  cases tag with
  | list ordered =>
    have hitems : ∀ p ∈ inner, p.tag? = some .item := h
    intro c hc
    change c ∈ mergeTexts (Forest.nodes (.list ordered) inner) at hc
    rw [nodes_of_tags fun p hp => ⟨_, hitems p hp⟩] at hc
    obtain ⟨p, hp, rfl⟩ := List.mem_map.mp hc
    exact kind_node (hitems p hp)
  | table alignments => exact table_demands alignments h hinner
  | _ => trivial

mutual
theorem tidy_passage : ∀ p : Passage, p.WellNested → Tidy p.node
  | .leaf l, _ => tidy_leaf l
  | .enclosed tag inner, h => by
    obtain ⟨hholds, hinner⟩ := wellNested_enclosed.mp h
    exact .mk _ (demands_of_holds hholds hinner)
      (arrange_tidy tag.kind (mergeTexts_tidy (tidy_nodes tag.kind inner hinner)))

theorem tidy_nodes (k : Kind) : ∀ ps : Forest, (∀ p ∈ ps, p.WellNested) →
    ∀ n ∈ Forest.nodes k ps, Tidy n
  | [], _ => by simp [Forest.nodes]
  | p :: ps, h => by
    have hps := tidy_nodes k ps fun q hq => h q (List.mem_cons_of_mem _ hq)
    intro n hn
    rw [Forest.nodes] at hn
    split at hn
    · exact hps n hn
    · rcases List.mem_cons.mp hn with rfl | hn
      · exact tidy_passage p (h p List.mem_cons_self)
      · exact hps n hn
end

theorem tidy_document {f : Forest} (h : ∀ p ∈ f, p.WellNested) : Tidy f.document :=
  .mk _ trivial (mergeTexts_tidy (tidy_nodes .document f h))

/-- The tree of well nested events is never refused for the shape of a list or a table, whatever
stands around them and at every width. -/
theorem layout_never_blames_shape {f : Forest} (h : ∀ p ∈ f, p.WellNested)
    (options : Layout.Options) {e : LayoutError}
    (he : Layout.document options (Node.ofEvents (Forest.events f)) = .error e) :
    e.blamesShape = false := by
  have hfault := Layout.errorOf_eq_some_iff.mpr he
  rw [Layout.document_fault, ofEvents_events] at hfault
  exact Layout.documentFault_spares (tidy_document h) e hfault

/-- A list in an item of a list, and a table with a head only, which is refused for that. -/
def nestedListAndTable : Forest :=
  [.enclosed (.list true) [.enclosed .item [.leaf (.text ['a']),
      .enclosed (.list false) [.enclosed .item [.leaf (.text ['b'])]]]],
    .enclosed (.table []) [.enclosed .tableHead [.enclosed .tableCell [.leaf (.text ['c'])]]]]

theorem layout_never_blames_shape_nestedListAndTable :
    (∀ p ∈ nestedListAndTable, p.WellNested) ∧
      Layout.document ⟨80⟩ (Node.ofEvents (Forest.events nestedListAndTable)) =
        .error (.invalidTable .noRows) ∧
      (LayoutError.invalidTable .noRows).blamesShape = false := by
  have hall : ∀ p ∈ nestedListAndTable, p.WellNested := by
    simp [nestedListAndTable, Tag.Holds, Passage.tag?]
  have herror : Layout.document ⟨80⟩ (Node.ofEvents (Forest.events nestedListAndTable)) =
      .error (.invalidTable .noRows) := by
    rfl
  exact ⟨hall, herror, layout_never_blames_shape hall ⟨80⟩ herror⟩

end CanonMark
