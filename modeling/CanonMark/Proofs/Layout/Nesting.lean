import CanonMark.Proofs.Layout.Fill
import CanonMark.Proofs.Layout.Grammar

/-! # Nested blocks without state

Paragraphs, quotes and lists are written through flows that are handed from child to child. The
layout below has no flow: each paragraph is filled behind the margins that the blocks around it
give, and nothing else of those blocks matters.
-/
namespace CanonMark.Layout

def runTokens (ns : List Node) : List Text :=
  match inlineTokens ns with
  | .ok ts => ts
  | .error _ => []

mutual
def quotedLines (cols : Nat) (margin : Text) : Node → List Text
  | .mk .paragraph _ cs => fillLines cols ⟨margin, margin⟩ (runTokens cs)
  | .mk .quote _ [] => [margin ++ "> ".toList]
  | .mk .quote _ (c :: cs) => quoteBody cols (margin ++ "> ".toList) (c :: cs)
  | _ => []

def quoteBody (cols : Nat) (margin : Text) : List Node → List Text
  | [] => []
  | [c] => quotedLines cols margin c
  | c :: d :: cs => quotedLines cols margin c ++ margin :: quoteBody cols margin (d :: cs)
end

mutual
def itemLines (cols : Nat) (margin marker : Text) : Node → List Text
  | .mk .item _ (.mk .paragraph _ cs :: rest) =>
    fillLines cols ⟨margin ++ marker, margin ++ indentation marker⟩ (runTokens cs) ++
      nestedLines cols (margin ++ indentation marker) rest
  | _ => []

def nestedLines (cols : Nat) (margin : Text) : List Node → List Text
  | [.mk (.list ordered) _ items] => itemsLines cols margin ordered 0 items
  | _ => []

def itemsLines (cols : Nat) (margin : Text) (ordered : Bool) (index : Nat) :
    List Node → List Text
  | [] => []
  | n :: ns =>
    itemLines cols margin (marker ordered index) n ++ itemsLines cols margin ordered (index + 1) ns
end

/-- The lines of a paragraph, a quote or a list that stands in no other block. -/
def flowLines (cols : Nat) : Node → List Text
  | .mk .paragraph _ cs => fillLines cols ⟨[], []⟩ (runTokens cs)
  | .mk .quote l cs => quotedLines cols [] (.mk .quote l cs)
  | .mk (.list ordered) _ items => itemsLines cols [] ordered 0 items
  | _ => []

namespace Flow

/-- A flow of this width and margin that counts no columns at the start of a line. -/
structure Steady (w : Flow) (cols : Nat) (margin : Margin) : Prop where
  width : w.cols = cols
  margin : w.margin = margin
  idle : w.atLineStart → w.count = 0

/-- A flow at the start of a line, with the same margin for every line. -/
structure Poised (w : Flow) (cols : Nat) (margin : Text) : Prop where
  width : w.cols = cols
  margin : w.margin = ⟨margin, margin⟩
  count : w.count = 0
  ready : w.atLineStart

theorem poised_nested {w : Flow} {cols : Nat} {margin : Text} (later : Text)
    (hw : w.Poised cols margin) : (w.nested ⟨later, later⟩).Poised cols (margin ++ later) :=
  ⟨hw.width, by simp [nested, start, hw.margin], rfl, rfl⟩

theorem breakLine_poised {w : Flow} {cols : Nat} {margin : Text} (hwidth : w.cols = cols)
    (hmargin : w.margin = ⟨margin, margin⟩) : w.breakLine.2.Poised cols margin :=
  ⟨hwidth, hmargin, rfl, rfl⟩

theorem settle_steady {w : Flow} (h : w.atLineStart = false) :
    w.settle.2.Steady w.cols w.margin := by
  unfold settle
  split
  · exact ⟨rfl, rfl, fun _ => rfl⟩
  · exact ⟨rfl, rfl, fun hs => absurd hs (by simp [h])⟩

theorem openWith_steady (w : Flow) (t : Text) : (w.openWith t).2.Steady w.cols w.margin :=
  settle_steady rfl

theorem write_steady {w : Flow} {cols : Nat} {margin : Margin} (t : Text)
    (hw : w.Steady cols margin) : (w.write t).2.Steady cols margin := by
  obtain ⟨rfl, rfl, _⟩ := hw
  unfold write
  split
  · exact openWith_steady w t
  · next hstart =>
    split
    · exact openWith_steady w.breakLine.2 t
    · have hs : w.atLineStart = false := by simp at hstart; exact hstart.2
      exact settle_steady (w := { w with count := w.count + (Text.width t + 1) }) hs

theorem writeAll_steady {cols : Nat} {margin : Margin} (ts : List Text) {w : Flow}
    (hw : w.Steady cols margin) : (w.writeAll ts).2.Steady cols margin := by
  induction ts generalizing w with
  | nil => exact hw
  | cons t ts ih =>
    rw [writeAll]
    split
    · exact ih hw
    · exact ih (write_steady t hw)

theorem terminate_poised {w : Flow} {cols : Nat} {margin : Text}
    (hw : w.Steady cols ⟨margin, margin⟩) : w.terminate.2.Poised cols margin := by
  unfold terminate
  split
  · next h => exact ⟨hw.width, hw.margin, hw.idle h, h⟩
  · exact breakLine_poised hw.width hw.margin

theorem Poised.steady {w : Flow} {cols : Nat} {margin : Text} (hw : w.Poised cols margin) :
    w.Steady cols ⟨margin, margin⟩ :=
  ⟨hw.width, hw.margin, fun _ => hw.count⟩

/-- With equal margins, a poised flow differs from a fresh one only in a flag that nothing reads. -/
theorem Poised.write_eq {w : Flow} {cols : Nat} {margin : Text} (hw : w.Poised cols margin)
    (t : Text) : w.write t = (start cols ⟨margin, margin⟩).write t := by
  obtain ⟨_, _, _, first, _⟩ := w
  obtain ⟨rfl, rfl, rfl, rfl⟩ := hw
  cases first <;> rfl

theorem Poised.terminate_eq {w : Flow} {cols : Nat} {margin : Text} (hw : w.Poised cols margin) :
    w.terminate = ([], w) := by
  simp [terminate, hw.ready]

theorem Poised.newline_fst {w : Flow} {cols : Nat} {margin : Text} (hw : w.Poised cols margin) :
    w.newline.1 = margin ++ ['\n'] := by
  simp [newline, hw.ready, opening, hw.margin, breakLine]

theorem Poised.newline_poised {w : Flow} {cols : Nat} {margin : Text} (hw : w.Poised cols margin) :
    w.newline.2.Poised cols margin :=
  breakLine_poised hw.width hw.margin

theorem Poised.rest_eq_fill {w : Flow} {cols : Nat} {margin : Text} (hw : w.Poised cols margin)
    (ts : List Text) : w.rest ts = fill cols ⟨margin, margin⟩ ts := by
  induction ts with
  | nil => simp [rest, fill, writeAll, terminate, hw.ready, start]
  | cons t ts ih =>
    change _ = (start cols ⟨margin, margin⟩).rest (t :: ts)
    by_cases ht : t = []
    · subst t
      exact ih
    · rw [rest_cons _ _ ht, rest_cons _ _ ht, hw.write_eq]

theorem start_poised (cols : Nat) (margin : Text) :
    (start cols ⟨margin, margin⟩).Poised cols margin :=
  ⟨rfl, rfl, rfl, rfl⟩

end Flow

theorem runTokens_nonempty (cs : List Node) : ∀ t ∈ runTokens cs, t ≠ [] := by
  intro t ht
  unfold runTokens inlineTokens at ht
  cases hc : compile cs with
  | error e => simp [hc, Functor.map, Except.map] at ht
  | ok ms =>
    simp only [hc, Functor.map, Except.map, tokens, List.mem_filter] at ht
    simpa using ht.2

theorem inlineTokens_eq {cs : List Node} (h : ∀ c ∈ cs, Compilable c) :
    inlineTokens cs = .ok (runTokens cs) := by
  have hf := inlineTokens_fault cs
  rw [(runFault_none cs).mpr h, errorOf_eq_none_iff] at hf
  obtain ⟨ts, hts⟩ := hf
  simp [runTokens, hts]

theorem paragraph_eq {cs : List Node} (h : ∀ c ∈ cs, Compilable c) (w : Flow) :
    paragraph w cs =
      .ok (w.rest (runTokens cs), (w.writeAll (runTokens cs)).2.terminate.2) := by
  unfold paragraph
  rw [inlineTokens_eq h]
  rfl

theorem rest_eq_unlines {w : Flow} {cols : Nat} {margin : Text} (hw : w.Poised cols margin)
    (cs : List Node) :
    w.rest (runTokens cs) = unlines (fillLines cols ⟨margin, margin⟩ (runTokens cs)) := by
  rw [hw.rest_eq_fill, unlines_fillLines _ _ _ (runTokens_nonempty cs)]

mutual
theorem quoteChild_eq {cols : Nat} {margin : Text} {q : Flow} (hq : q.Poised cols margin) :
    ∀ {n : Node}, Quotable n → ∃ q' : Flow, q'.Poised cols margin ∧
      quoteChild q n = .ok (unlines (quotedLines cols margin n), q')
  | .mk .paragraph l cs, h => by
    cases h with
    | paragraph _ h =>
      refine ⟨_, Flow.terminate_poised (Flow.writeAll_steady (runTokens cs) hq.steady), ?_⟩
      rw [quoteChild, paragraph_eq h, rest_eq_unlines hq, quotedLines]
  | .mk .quote l [], h => by
    refine ⟨q, hq, ?_⟩
    have hn := Flow.poised_nested "> ".toList hq
    simp only [quoteChild, quotedLines, quoteMargin, hn.newline_fst, unlines_cons, unlines_nil]
  | .mk .quote l (c :: cs), h => by
    cases h with
    | quote _ h =>
      refine ⟨q, hq, ?_⟩
      have hn := Flow.poised_nested "> ".toList hq
      simp only [quoteChild, quotedLines, quoteMargin]
      rw [quoteChildren_eq hn true h]
      rfl

theorem quoteChildren_eq {cols : Nat} {margin : Text} {q : Flow} (hq : q.Poised cols margin)
    (first : Bool) : ∀ {ns : List Node}, (∀ n ∈ ns, Quotable n) →
      quoteChildren q first ns =
        .ok (unlines ((if first || ns.isEmpty then [] else [margin]) ++ quoteBody cols margin ns))
  | [], _ => by simp [quoteChildren, quoteBody]
  | n :: ns, h => by
    have hn : Quotable n := h n (by simp)
    have hns : ∀ m ∈ ns, Quotable m := fun m hm => h m (by simp [hm])
    obtain ⟨gap, q₁, hgap, hq₁, htext⟩ : ∃ gap q₁,
        (if first then ([], q) else q.newline) = (gap, q₁) ∧ q₁.Poised cols margin ∧
          gap = unlines (if first then [] else [margin]) := by
      cases first with
      | true => exact ⟨_, _, rfl, hq, rfl⟩
      | false => exact ⟨_, _, rfl, hq.newline_poised, hq.newline_fst.trans (by simp)⟩
    obtain ⟨q₂, hq₂, hchild⟩ := quoteChild_eq hq₁ hn
    have hrest := quoteChildren_eq hq₂ false hns
    simp only [quoteChildren, hgap, hchild, hq₂.terminate_eq, bind, Except.bind, hrest, pure,
      Except.pure]
    cases ns with
    | nil => simp [htext, quoteBody]
    | cons m ns => simp [htext, quoteBody]
end

/-- Items are laid out one by one: the flow that they share is never written to. -/
theorem listItems_of_items {cols : Nat} {margin : Text} {w : Flow} (ordered : Bool) {ns : List Node}
    (h : ∀ n ∈ ns, ∀ marker, listItem w marker n = .ok (unlines (itemLines cols margin marker n)))
    (index : Nat) :
    listItems w ordered index ns = .ok (unlines (itemsLines cols margin ordered index ns)) := by
  induction ns generalizing index with
  | nil => rfl
  | cons n ns ih =>
    have hn := h n (by simp) (marker ordered index)
    have hns := ih (fun m hm => h m (by simp [hm])) (index + 1)
    simp only [listItems, hn, hns, bind, Except.bind, pure, Except.pure, itemsLines, unlines_append]

theorem item_rest_eq {cols : Nat} {margin : Text} {w : Flow} (hw : w.Poised cols margin)
    (marker : Text) (cs : List Node) :
    (w.nested ⟨marker, indentation marker⟩).rest (runTokens cs) =
      unlines (fillLines cols ⟨margin ++ marker, margin ++ indentation marker⟩ (runTokens cs)) := by
  rw [unlines_fillLines _ _ _ (runTokens_nonempty cs)]
  simp only [Flow.nested, hw.width, hw.margin]
  rfl

theorem listItem_eq {cols : Nat} {n : Node} (h : Listable n) {margin : Text} {w : Flow}
    (hw : w.Poised cols margin) (marker : Text) :
    listItem w marker n = .ok (unlines (itemLines cols margin marker n)) := by
  induction h generalizing margin w marker with
  | plain l p hcs =>
    simp only [listItem, paragraph_eq hcs, bind, Except.bind, itemRest, pure, Except.pure,
      itemLines, nestedLines, item_rest_eq hw, List.append_nil]
  | nested l p ordered m hcs _ ih =>
    have hn := Flow.poised_nested (indentation marker) hw
    have hitems := listItems_of_items ordered (fun i hi => ih i hi hn) 0
    simp only [listItem, paragraph_eq hcs, bind, Except.bind, itemRest, hitems, pure, Except.pure,
      itemLines, nestedLines, item_rest_eq hw, unlines_append]

theorem listItems_eq {cols : Nat} {margin : Text} {w : Flow} (hw : w.Poised cols margin)
    (ordered : Bool) (index : Nat) {ns : List Node} (h : ∀ n ∈ ns, Listable n) :
    listItems w ordered index ns = .ok (unlines (itemsLines cols margin ordered index ns)) :=
  listItems_of_items ordered (fun n hn => listItem_eq (h n hn) hw) index

theorem paragraph_block_eq (cols : Nat) (l : Text) {cs : List Node} (h : ∀ c ∈ cs, Compilable c) :
    block cols (.mk .paragraph l cs) =
      .ok (unlines (flowLines cols (.mk .paragraph l cs)) ++ ['\n']) := by
  have hw := Flow.start_poised cols []
  have hn := (Flow.terminate_poised (Flow.writeAll_steady (runTokens cs) hw.steady)).newline_fst
  simp only [block, paragraph_eq h, bind, Except.bind, pure, Except.pure, hn, flowLines,
    rest_eq_unlines hw, List.nil_append]

theorem quote_block_eq (cols : Nat) (l : Text) {cs : List Node} (h : ∀ c ∈ cs, Quotable c) :
    block cols (.mk .quote l cs) =
      .ok (unlines (flowLines cols (.mk .quote l cs)) ++ ['\n']) := by
  obtain ⟨q, _, hq⟩ := quoteChild_eq (Flow.start_poised cols []) (.quote l h)
  simp only [block, hq, bind, Except.bind, pure, Except.pure, flowLines]

theorem list_block_eq (cols : Nat) (ordered : Bool) (l : Text) {items : List Node}
    (h : ∀ i ∈ items, Listable i) :
    block cols (.mk (.list ordered) l items) =
      .ok (unlines (flowLines cols (.mk (.list ordered) l items)) ++ ['\n']) := by
  have hw := Flow.start_poised cols []
  simp only [block, listItems_eq hw ordered 0 h, bind, Except.bind, pure, Except.pure,
    hw.newline_fst, flowLines, List.nil_append]

def isFilled : Kind → Bool
  | .paragraph | .quote | .list _ => true
  | _ => false

/-- Paragraphs, quotes and lists of any depth are written as the lines that the layout without flows
gives them, each with its end, and one more line end. -/
theorem block_refines_stateless_layout (cols : Nat) {n : Node} (h : Renderable n)
    (hk : isFilled n.kind) : block cols n = .ok (unlines (flowLines cols n) ++ ['\n']) := by
  cases h with
  | paragraph l hcs => exact paragraph_block_eq cols l hcs
  | quote l hcs => exact quote_block_eq cols l hcs
  | list ordered l hitems => exact list_block_eq cols ordered l hitems
  | _ => simp [isFilled, Node.kind] at hk

/-- An ordered list of which the second item holds a list of its own. -/
def twoLevelList : Node :=
  .branch (.list true)
    [.branch .item [.branch .paragraph [.ofText "first item wraps here".toList]],
      .branch .item
        [.branch .paragraph [.ofText "second".toList],
          .branch (.list false) [.branch .item [.branch .paragraph [.ofText "- inner".toList]]]]]

theorem block_refines_stateless_layout_twoLevelList :
    Renderable twoLevelList ∧ isFilled twoLevelList.kind ∧
      block 14 twoLevelList =
        .ok "1. first item\n   wraps here\n2. second\n   - \\- inner\n\n".toList := by
  refine ⟨by decide, by decide, ?_⟩
  rw [block_refines_stateless_layout 14 (by decide) (by decide)]
  decide

end CanonMark.Layout
