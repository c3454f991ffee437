import CanonMark.Proofs.Markdown.Parts

/-! # Lists read back

The first line of an item stands behind the margin of its list, and its other lines behind a margin
that is larger by the width of its marker or more. So the lines of an item pass it, and the marker
of the next item does not. The reader goes on with the same list as long as the mark is the same.
-/
namespace CanonMark.Markdown

open Cursor (indented)
open Layout (runTokens cut lineBody fillLines marker indentation itemLines nestedLines itemsLines
  Listable)
open State (idle)

def listMark (ordered : Bool) : ListMark := if ordered then ⟨'.'⟩ else ⟨'-'⟩

theorem listMark_ordered (ordered : Bool) : (listMark ordered).ordered = ordered := by
  cases ordered <;> rfl

theorem isDigit_of_char {c : Char} (h : c.isDigit = true) : Text.isDigit c = true := by
  simp only [Char.isDigit, Bool.and_eq_true, decide_eq_true_eq] at h
  simp only [Text.isDigit, Bool.and_eq_true, decide_eq_true_eq]
  exact h

theorem digits_ofNat (n : Nat) : ∀ c ∈ Text.ofNat n, Text.isDigit c = true := fun _ hc =>
  isDigit_of_char (Nat.isDigit_of_mem_toDigits (by omega) (by omega) hc)

theorem listMarker_number {digits : Text} (hdigits : ∀ c ∈ digits, Text.isDigit c = true)
    (hne : digits ≠ []) (hlen : digits.length ≤ 9) {d : Char} (hd : d = '.' ∨ d = ')') {after : Text}
    (hafter : ∀ c ∈ after.head?, Text.isSpaceOrTab c = true) :
    listMarker? (digits ++ d :: after) = some (⟨d⟩, Text.value 10 digits, digits.length + 1) := by
  have hdigit : Text.isDigit d = false := by
    rcases hd with rfl | rfl
    · decide
    · decide
  have htake : (digits ++ d :: after).takeWhile Text.isDigit = digits := by
    rw [List.takeWhile_append_of_pos hdigits]
    simp [hdigit]
  have hdrop : (digits ++ d :: after).drop digits.length = d :: after := List.drop_left
  have hdrop' : (digits ++ d :: after).drop (digits.length + 1) = after := by
    rw [← List.drop_drop, hdrop]
    rfl
  have hshort : ¬ (digits.isEmpty || decide (digits.length > 9)) = true := by
    simp only [Bool.or_eq_true, decide_eq_true_eq, List.isEmpty_iff]
    rintro (h | h)
    · exact hne h
    · omega
  obtain ⟨c, u, hcu, hc⟩ : ∃ c u, digits ++ d :: after = c :: u ∧ Text.isDigit c = true := by
    cases digits with
    | nil => exact absurd rfl hne
    | cons c digits => exact ⟨c, _, rfl, hdigits c List.mem_cons_self⟩
  have hbullet : ¬ (c == '-' || c == '+' || c == '*') = true := by
    simp only [Bool.or_eq_true, beq_iff_eq]
    rintro ((rfl | rfl) | rfl) <;> cases hc
  have hmark : (d == '.' || d == ')') = true := by simpa using hd
  rw [hcu] at htake hdrop hdrop' ⊢
  have hspace : ((c :: u).drop (digits.length + 1)).head?.all Text.isSpaceOrTab = true := by
    rw [hdrop', Option.all_eq_true]
    exact hafter
  simp only [listMarker?, if_neg hbullet, htake, if_neg hshort, hdrop, List.head?_cons, if_pos hmark]
  exact Option.filter_eq_some_iff.mpr ⟨rfl, hspace⟩

theorem listMarker_marker (ordered : Bool) {index : Nat} (h : index + 1 < 1000000000) (t : Text) :
    ∃ number, listMarker? (marker ordered index ++ t) =
        some (listMark ordered, number, (marker ordered index).length - 1) ∧
      (ordered = true → index = 0 → number = 1) := by
  cases ordered with
  | false => exact ⟨0, rfl, by simp⟩
  | true =>
    have hlen : (Text.ofNat (index + 1)).length ≤ 9 :=
      (Nat.length_toDigits_le_iff (by omega) (by omega)).mpr h
    have hmarker : marker true index ++ t = Text.ofNat (index + 1) ++ '.' :: ' ' :: t := by
      simp [marker]
    have hcount : (marker true index).length - 1 = (Text.ofNat (index + 1)).length + 1 := by
      simp [marker]
    refine ⟨Text.value 10 (Text.ofNat (index + 1)), ?_, ?_⟩
    · rw [hmarker, hcount]
      exact listMarker_number (digits_ofNat _) Nat.toDigits_ne_nil hlen (.inl rfl)
        (by simp [Text.isSpaceOrTab])
    · rintro - rfl
      decide

theorem number_head (index : Nat) :
    ∃ c u, marker true index = c :: u ∧ Text.isDigit c = true ∧ u ≠ [] := by
  cases hd : Text.ofNat (index + 1) with
  | nil => exact absurd hd Nat.toDigits_ne_nil
  | cons c digits =>
    exact ⟨c, digits ++ ". ".toList, by simp [marker, hd],
      digits_ofNat (index + 1) c (by simp [hd]), by simp⟩

section

variable (ordered : Bool) (index : Nat) {t : Text} (ht : Calm t)

theorem marker_flush (t : Text) : Flush (marker ordered index ++ t) := by
  cases ordered with
  | false => exact flush_cons _ rfl
  | true =>
    obtain ⟨c, u, hm, hc, -⟩ := number_head index
    rw [hm, List.cons_append]
    refine flush_cons _ ?_
    have hs := isDigit_not_spacing hc
    by_contra hb
    rw [isSpacing_of_isSpaceOrTab (Bool.not_eq_false _ ▸ hb)] at hs
    cases hs

theorem marker_ne_nil (t : Text) : marker ordered index ++ t ≠ [] := by
  cases ordered with
  | false => simp [marker]
  | true =>
    obtain ⟨c, u, hm, -⟩ := number_head index
    simp [hm]

include ht

theorem marker_thematic : isThematicBreak (marker ordered index ++ t) = false := by
  cases ordered with
  | false =>
    change isThematicBreak ('-' :: ' ' :: t) = false
    by_contra hb
    simp only [isThematicBreak, Bool.not_eq_false, Bool.and_eq_true] at hb
    have hall : ∀ x ∈ t, x = '-' ∨ Text.isSpacing x = true := by
      intro x hx
      have := List.all_eq_true.mp hb.1.2 x (by simp [hx])
      simp only [Bool.or_eq_true, beq_iff_eq] at this
      exact this.imp_right isSpacing_of_isSpaceOrTab
    obtain ⟨c, hc, hs⟩ := ht.visible
    cases t with
    | nil => simp at hc
    | cons d t =>
      obtain rfl : d = c := by simpa using hc
      have := ht.dashes
      rw [isAll_leadWord_of_all hall hs] at this
      cases this
  | true =>
    obtain ⟨c, u, hm, hc, hne⟩ := number_head index
    have hset : (c == '*' || c == '-' || c == '_') = false := by
      by_contra hb
      simp only [Bool.not_eq_false, Bool.or_eq_true, beq_iff_eq] at hb
      rcases hb with (rfl | rfl) | rfl <;> cases hc
    rw [hm, List.cons_append, isThematicBreak, hset, Bool.false_and, Bool.false_and]

theorem marker_underline : underlineLevel? (marker ordered index ++ t) = none := by
  cases ordered with
  | false =>
    change underlineLevel? ('-' :: ' ' :: t) = none
    have hrun : Text.runLength '-' ('-' :: ' ' :: t) = 1 := rfl
    have hblank : isBlankText (' ' :: t) = false := by
      have := ht.not_blank
      simp only [isBlankText] at this ⊢
      rw [List.all_cons, this, Bool.and_false]
    simp [underlineLevel?, hrun, hblank]
  | true =>
    obtain ⟨c, u, hm, hc, -⟩ := number_head index
    have hset : (c == '=' || c == '-') = false := by
      by_contra hb
      simp only [Bool.not_eq_false, Bool.or_eq_true, beq_iff_eq] at hb
      rcases hb with rfl | rfl <;> cases hc
    simp only [hm, List.cons_append, underlineLevel?, hset, Bool.false_and]
    rfl

theorem listMarker_indented (hi : index + 1 < 1000000000) (e column : Nat) :
    (indented 0 (marker ordered index ++ t) column).listMarker? e =
      some (listMark ordered, e + (marker ordered index).length,
        indented 0 t (column + (marker ordered index).length)) := by
  obtain ⟨number, hfound, -⟩ := listMarker_marker ordered hi t
  obtain ⟨stem, hstem⟩ : ∃ stem, marker ordered index = stem ++ [' '] := by
    cases ordered with
    | false => exact ⟨['-'], rfl⟩
    | true => exact ⟨Text.ofNat (index + 1) ++ ['.'], by simp [marker]⟩
  have hlen : (marker ordered index).length - 1 = stem.length := by simp [hstem]
  have hadvance : (indented 0 (marker ordered index ++ t) column).advance stem.length =
      indented 1 t (column + stem.length) := by
    simp [Cursor.advance, indented, hstem]
  have hblank : (indented 1 t (column + stem.length)).isBlank = false := by
    have := ht.not_blank
    simp only [isBlankText] at this
    simp [Cursor.isBlank, indented, isBlankText, this]
  have hskip : (indented 1 t (column + stem.length)).skip 5 =
      (1, indented 0 t (column + stem.length + 1)) := by
    rw [Cursor.skip_indented ht.flush]
    rfl
  simp only [Cursor.listMarker?, indented_zero_rest, marker_thematic ordered index ht, hfound, hlen,
    Option.map_some, hadvance, hskip, hblank]
  simp [hstem, Nat.add_assoc]

end

/-- From `s`, a line behind the margin of a list with this mark leads to the list in `S`. -/
def Continues (s : State) (margin left : Nat) (mark : ListMark) (S : State) : Prop :=
  ∀ t, Flush t → t ≠ [] → ∃ outer,
    pass (indented margin t 0) s.spine = (outer, indented left t (margin - left)) ∧
      (s.closeMany outer.length).continueList mark = S

theorem Continues.enters {s S : State} {margin left : Nat} {ordered : Bool}
    (h : Continues s margin left (listMark ordered) S) (hleft : left < 4) {index : Nat}
    (hi : index + 1 < 1000000000) {t : Text} (ht : Calm t) :
    ∃ column, Enters s (List.replicate margin ' ' ++ marker ordered index ++ t)
      (S.push (.item (left + (marker ordered index).length))) (indented 0 t column) := by
  have hflush := marker_flush ordered index t
  obtain ⟨outer, hpass, hlist⟩ := h _ hflush (marker_ne_nil ordered index t)
  refine ⟨margin - left + left + (marker ordered index).length, outer,
    indented left (marker ordered index ++ t) (margin - left), ?_, ?_⟩
  · rw [List.append_assoc]
    exact hpass
  · have hnot : ¬ left ≥ 4 := by omega
    have hblank : (indented 0 t (margin - left + left + (marker ordered index).length)).isBlank =
        false := ht.not_blank
    obtain ⟨fuel, hfuel⟩ : ∃ fuel,
        (indented left (marker ordered index ++ t) (margin - left)).rest.length = fuel + 1 := by
      refine Nat.exists_eq_succ_of_ne_zero fun h0 => ?_
      have := List.length_eq_zero_iff.mp h0
      simp only [indented, List.append_eq_nil_iff] at this
      exact marker_ne_nil ordered index t (by simp [this.2])
    rw [hfuel, openContainers]
    simp only [indented_skip_four hleft hflush, if_neg hnot, listMarker_indented ordered index ht hi,
      hlist, hblank]
    exact openContainers_stop _ (Or.inr ht) (by omega) _ _

/-- Lines that end every item of a list at this place, and what stands in it. -/
def Closes (spine : List Container) (left : Nat) (tail : List Line) : Prop :=
  ∀ mark loose i more, left < i →
    Halts (spine ++ .list mark loose :: .item i :: more) none tail

theorem Closes.nested {spine : List Container} {left : Nat} {tail : List Line}
    (h : Closes spine left tail) (mark : ListMark) (loose : Bool) {i : Nat} (hi : left < i)
    (left' : Nat) : Closes (spine ++ [.list mark loose, .item i]) left' tail := by
  intro mark' loose' i' more _
  have := h mark loose i (.list mark' loose' :: .item i' :: more) hi
  simpa using this

theorem closes_nil (spine : List Container) (left : Nat) : Closes spine left [] :=
  fun _ _ _ _ _ => halts_nil _ _

theorem pass_blank (spine : List Container) :
    ∃ left, pass (indented 0 [] 0) spine = (left, indented 0 [] 0) := by
  induction spine with
  | nil => exact ⟨[], rfl⟩
  | cons c cs ih =>
    cases c with
    | quote => exact ⟨_, pass_cons_none (quote_stops flush_nil (by simp) 0) cs⟩
    | list mark loose => exact ih
    | item i =>
      rw [pass_cons_some (item_pass_blank i 0)]
      exact ih

theorem closes_blank (spine : List Container) (left : Nat) (rest : List Line) :
    Closes spine left (fullLine [] :: rest) := by
  intro mark loose i more _
  obtain ⟨outer, hpass⟩ := pass_blank (spine ++ .list mark loose :: .item i :: more)
  have hline : pass (fullLine []).start (spine ++ .list mark loose :: .item i :: more) =
      (outer, indented 0 [] 0) := hpass
  exact halts_blank hline rest

theorem closes_item {spine : List Container} {margin left : Nat} (h : Passes spine margin left)
    (hleft : left < 4) (ordered : Bool) {index : Nat} (hi : index + 1 < 1000000000) {t : Text}
    (rest : List Line) :
    Closes spine left
      (fullLine (List.replicate margin ' ' ++ marker ordered index ++ t) :: rest) := by
  intro mark loose i more hlt
  have hflush := marker_flush ordered index t
  have hpass := h.stops mark loose hlt more hflush (marker_ne_nil ordered index t)
  have hline : pass (fullLine (List.replicate margin ' ' ++ marker ordered index ++ t)).start
      (spine ++ .list mark loose :: .item i :: more) =
      (.item i :: more, indented left (marker ordered index ++ t) (margin - left)) := by
    rw [← hpass, List.append_assoc]
    rfl
  have hskip := indented_skip_four hleft hflush (margin - left)
  obtain ⟨number, hfound, -⟩ := listMarker_marker ordered hi t
  have hinterrupts : interrupts true (marker ordered index ++ t) = true := by
    simp [interrupts, markerInterrupts, hfound]
  constructor
  · simp only [continuation, hline, hskip, indented_zero_rest, interruptsParagraph,
      List.isEmpty_cons, Bool.not_false, hinterrupts]
    simp [hleft]
  · intro columns _
    simp only [tableHead?, inside?, hline, bind, Option.bind]

theorem halts_nested {spine : List Container} {margin left : Nat} (h : Passes spine margin left)
    (hleft : left < 4) (ordered : Bool) {t : Text} (ht : Calm t) (rest : List Line) :
    Halts spine (some (marker ordered 0 ++ t))
      (fullLine (List.replicate margin ' ' ++ marker ordered 0 ++ t) :: rest) := by
  have hflush := marker_flush ordered 0 t
  have hpass := h.pass_eq 0 _ hflush
  rw [Nat.add_zero, Nat.add_zero] at hpass
  have hline : pass (fullLine (List.replicate margin ' ' ++ marker ordered 0 ++ t)).start spine =
      ([], indented left (marker ordered 0 ++ t) (margin - left)) := by
    rw [← hpass, List.append_assoc]
    rfl
  have hskip := indented_skip_four hleft hflush (margin - left)
  obtain ⟨number, hfound, hone⟩ := listMarker_marker ordered (show 0 + 1 < 1000000000 by omega) t
  have hbehind : isBlankText ((marker ordered 0 ++ t).drop ((marker ordered 0).length - 1)) =
      false := by
    have hblank := ht.not_blank
    simp only [isBlankText] at hblank ⊢
    rw [List.drop_append_of_le_length (by omega), List.all_append, hblank, Bool.and_false]
  have hinterrupts : interrupts false (marker ordered 0 ++ t) = true := by
    have hmark : markerInterrupts false (marker ordered 0 ++ t) = true := by
      cases ordered with
      | false => simp only [markerInterrupts, hfound, hbehind]; rfl
      | true => simp only [markerInterrupts, hfound, hbehind, hone rfl rfl]; rfl
    simp [interrupts, hmark]
  constructor
  · simp only [continuation, hline, hskip, indented_zero_rest, marker_underline ordered 0 ht,
      ite_self, interruptsParagraph, List.isEmpty_nil, Bool.not_true, hinterrupts]
    simp [hleft]
  · intro columns hnext
    have hrow := hnext _ rfl
    have hin : inside? spine (fullLine (List.replicate margin ' ' ++ marker ordered 0 ++ t)) =
        some (indented left (marker ordered 0 ++ t) (margin - left)) := by
      simp only [inside?, hline]
    have hnot : ¬ left ≥ 4 := by omega
    simp only [tableHead?, hin, bind, Option.bind, hskip, indented_zero_rest, if_neg hnot]
    rw [headsTable] at hrow
    cases hr : delimiterRow? (marker ordered 0 ++ t) with
    | none => rfl
    | some alignments => simpa [hr] using hrow

def spineOf (frames : List Frame) : List Container := (frames.map Frame.container).reverse

theorem spineOf_cons (f : Frame) (frames : List Frame) :
    spineOf (f :: frames) = spineOf frames ++ [f.container] := by
  simp [spineOf]

theorem spine_idle (frames : List Frame) (done : List Block) :
    (idle frames done).spine = spineOf frames := rfl

/-- Items of a list with this mark have been read, the last of which may still be open. -/
def ItemsRead (frames : List Frame) (done : List Block) (mark : ListMark) (left : Nat)
    (items : List Block) (s : State) : Prop :=
  ∃ inner i more, s = idle inner done ∧ left < i ∧ .quote ∉ more ∧
    spineOf inner = spineOf frames ++ .list mark false :: .item i :: more ∧
    s.closeMany (more.length + 1) = idle (⟨.list mark false, items⟩ :: frames) done

theorem ItemsRead.continues {frames : List Frame} {done items : List Block} {mark : ListMark}
    {margin left : Nat} {s : State} (h : ItemsRead frames done mark left items s)
    (hp : Passes (spineOf frames) margin left) :
    Continues s margin left mark (idle (⟨.list mark false, items⟩ :: frames) done) := by
  obtain ⟨inner, i, more, rfl, hi, -, hspine, hclose⟩ := h
  intro t ht hne
  refine ⟨.item i :: more, ?_, ?_⟩
  · rw [spine_idle, hspine]
    exact hp.stops mark false hi more ht hne
  · rw [List.length_cons, hclose]
    simp [State.continueList, idle]

theorem continues_nested {frames : List Frame} (done : List Block) {margin left : Nat}
    (hp : Passes (spineOf frames) margin left)
    (htop : ∃ i blocks outer, frames = ⟨.item i, blocks⟩ :: outer) (mark : ListMark) :
    Continues (idle frames done) margin left mark
      (idle (⟨.list mark false, []⟩ :: frames) done) := by
  obtain ⟨i, blocks, outer, rfl⟩ := htop
  intro t ht _
  refine ⟨[], ?_, ?_⟩
  · have := hp.pass_eq 0 t ht
    rwa [Nat.add_zero, Nat.add_zero] at this
  · rfl

/-- A list read within an item belongs to the item, which is read itself when it ends. -/
theorem ItemsRead.outer {frames : List Frame} {done items items' blocks : List Block}
    {mark mark' : ListMark} {left left' i : Nat} {s : State} (hi : left < i)
    (h : ItemsRead (⟨.item i, blocks⟩ :: ⟨.list mark false, items⟩ :: frames) done mark' left'
      items' s) :
    ItemsRead frames done mark left
      (.item (.list mark'.ordered true items'.reverse :: blocks).reverse :: items) s := by
  obtain ⟨inner, i', more, rfl, hi', hmore, hspine, hclose⟩ := h
  refine ⟨inner, i, .list mark' false :: .item i' :: more, rfl, hi, by simpa using hmore, ?_, ?_⟩
  · rw [hspine, spineOf_cons, spineOf_cons]
    simp
  · have hcount : (Container.list mark' false :: .item i' :: more).length + 1 =
        more.length + 1 + 2 := by
      simp only [List.length_cons]
    rw [hcount, State.closeMany_add, hclose]
    rfl

theorem leads_of_passes {spine : List Container} {margin left : Nat} (h : Passes spine margin left)
    (hleft : left < 4) : Leads spine (List.replicate margin ' ') := by
  intro t ht
  have := h.pass_eq 0 t ht
  rw [Nat.add_zero, Nat.add_zero] at this
  exact ⟨left, _, hleft, this⟩

def nestedOpening (cols margin : Nat) (rest : List Node) : Option Text :=
  (nestedLines cols (List.replicate margin ' ') rest).head?.map (·.drop margin)

mutual
def itemParts (cols margin : Nat) (mk : Text) : Node → List Part
  | .mk .item _ (.mk .paragraph _ cs :: rest) =>
    .run ⟨List.replicate margin ' ' ++ mk, List.replicate margin ' ' ++ indentation mk⟩
        (nestedOpening cols (margin + max mk.length 3) rest) cs ::
      nestedParts cols (margin + max mk.length 3) rest
  | _ => []

def nestedParts (cols margin : Nat) : List Node → List Part
  | [.mk (.list ordered) _ items] => .list items.length :: itemsParts cols margin ordered 0 items
  | _ => []

def itemsParts (cols margin : Nat) (ordered : Bool) (index : Nat) : List Node → List Part
  | [] => []
  | n :: ns =>
    itemParts cols margin (marker ordered index) n ++ itemsParts cols margin ordered (index + 1) ns
end

def ItemSound (cols margin : Nat) (mk : Text) (n : Node) : Prop :=
  ∀ p ∈ itemParts cols margin mk n, p.Sound cols

def ItemsSound (cols margin : Nat) (ordered : Bool) (index : Nat) (ns : List Node) : Prop :=
  ∀ p ∈ itemsParts cols margin ordered index ns, p.Sound cols

theorem itemsSound_cons {cols margin index : Nat} {ordered : Bool} {n : Node} {ns : List Node} :
    ItemsSound cols margin ordered index (n :: ns) ↔
      ItemSound cols margin (marker ordered index) n ∧
        ItemsSound cols margin ordered (index + 1) ns := by
  simp only [ItemsSound, ItemSound, itemsParts, List.forall_mem_append]

theorem ItemSound.run {cols margin : Nat} {mk l p : Text} {cs rest : List Node}
    (h : ItemSound cols margin mk (.mk .item l (.mk .paragraph p cs :: rest))) :
    SoundRun cols ⟨List.replicate margin ' ' ++ mk, List.replicate margin ' ' ++ indentation mk⟩
      (nestedOpening cols (margin + max mk.length 3) rest) cs :=
  h (.run _ _ _) (List.mem_cons_self ..)

theorem ItemSound.nested {cols margin : Nat} {mk l p m : Text} {ordered : Bool}
    {cs items : List Node}
    (h : ItemSound cols margin mk
      (.mk .item l [.mk .paragraph p cs, .mk (.list ordered) m items])) :
    (items ≠ [] ∧ items.length < 1000000000) ∧
      ItemsSound cols (margin + max mk.length 3) ordered 0 items := by
  have hcount : Part.Sound cols (.list items.length) :=
    h _ (List.mem_cons_of_mem _ (List.mem_cons_self ..))
  refine ⟨⟨List.length_pos_iff.mp hcount.1, hcount.2⟩, fun q hq => ?_⟩
  exact h q (List.mem_cons_of_mem _ (List.mem_cons_of_mem _ hq))

/-- An item is read back behind the items before it. -/
def ItemReads (cols : Nat) (n : Node) : Prop :=
  ∀ {frames : List Frame} {done items : List Block} {margin left index : Nat} {ordered : Bool}
    {s : State} {tail : List Line},
    Passes (spineOf frames) margin left → left < 4 → index + 1 < 1000000000 →
    Continues s margin left (listMark ordered)
      (idle (⟨.list (listMark ordered) false, items⟩ :: frames) done) →
    ItemSound cols margin (marker ordered index) n → Closes (spineOf frames) left tail →
    ∃ s' b, Shows cols n b ∧ ItemsRead frames done (listMark ordered) left (b :: items) s' ∧
      Reads s ((itemLines cols (List.replicate margin ' ') (marker ordered index) n).map fullLine ++
        tail) s' tail

theorem oneLine_replicate (n : Nat) : OneLine (List.replicate n ' ') := by
  constructor <;> simp [List.mem_replicate]

theorem oneLine_marker (ordered : Bool) (index : Nat) : OneLine (marker ordered index) := by
  cases ordered with
  | false => exact ⟨by simp [marker], by simp [marker]⟩
  | true =>
    have hdigits : OneLine (Text.ofNat (index + 1)) := by
      constructor <;> intro hm <;> cases digits_ofNat _ _ hm
    have hdot : OneLine ". ".toList := ⟨by simp, by simp⟩
    simpa [marker] using oneLine_append.mpr ⟨hdigits, hdot⟩

theorem indentation_eq (mk : Text) (margin : Nat) :
    List.replicate margin ' ' ++ indentation mk = List.replicate (margin + max mk.length 3) ' ' := by
  rw [indentation, List.replicate_append_replicate]

theorem itemLines_head {cols margin index : Nat} {ordered : Bool} {n : Node} (h : Listable n)
    (hs : ItemSound cols margin (marker ordered index) n) :
    ∃ t rest, Calm t ∧ itemLines cols (List.replicate margin ' ') (marker ordered index) n =
      (List.replicate margin ' ' ++ marker ordered index ++ t) :: rest := by
  have hfirst : OneLine (List.replicate margin ' ' ++ marker ordered index) :=
    oneLine_append.mpr ⟨oneLine_replicate _, oneLine_marker _ _⟩
  have hlater : OneLine (List.replicate margin ' ' ++ indentation (marker ordered index)) := by
    rw [indentation_eq]
    exact oneLine_replicate _
  cases h with
  | plain l p hcs =>
    obtain ⟨t, bodies, hbodies, hlines⟩ := hs.run.lines hfirst hlater
    have hcalm := hs.run.coherent.calm
    rw [hbodies] at hcalm
    exact ⟨t, _, hcalm t (by simp), by rw [itemLines, hlines]; rfl⟩
  | nested l p o m hcs hitems =>
    obtain ⟨t, bodies, hbodies, hlines⟩ := hs.run.lines hfirst hlater
    have hcalm := hs.run.coherent.calm
    rw [hbodies] at hcalm
    exact ⟨t, _, hcalm t (by simp), by rw [itemLines, hlines]; rfl⟩

theorem marker_length (ordered : Bool) (index : Nat) : 2 ≤ (marker ordered index).length := by
  cases ordered with
  | false => simp [marker]
  | true => simp [marker]

/-- The margin of what belongs to an item passes the item. -/
theorem passes_within {spine : List Container} {margin left : Nat} (h : Passes spine margin left)
    (ordered : Bool) (index : Nat) :
    Passes (spine ++ [.list (listMark ordered) false,
        .item (left + (marker ordered index).length)])
      (margin + max (marker ordered index).length 3) (3 - (marker ordered index).length) := by
  have hmax : max (marker ordered index).length 3 =
      (marker ordered index).length + (3 - (marker ordered index).length) := by omega
  rw [hmax]
  exact h.item _ _ _ _

/-- If each item can be read back, so can a list of them. -/
theorem items_read {cols : Nat} {ns : List Node} (h : ∀ n ∈ ns, Listable n ∧ ItemReads cols n)
    (hne : ns ≠ []) {frames : List Frame} {done items : List Block} {margin left index : Nat}
    {ordered : Bool} {s : State} {tail : List Line} (hp : Passes (spineOf frames) margin left)
    (hleft : left < 4) (hi : index + ns.length < 1000000000)
    (hs : Continues s margin left (listMark ordered)
      (idle (⟨.list (listMark ordered) false, items⟩ :: frames) done))
    (hsound : ItemsSound cols margin ordered index ns) (htail : Closes (spineOf frames) left tail) :
    ∃ s' bs, ShowsAll cols ns bs ∧
      ItemsRead frames done (listMark ordered) left (bs.reverse ++ items) s' ∧
      Reads s ((itemsLines cols (List.replicate margin ' ') ordered index ns).map fullLine ++ tail)
        s' tail := by
  induction ns generalizing s items index with
  | nil => exact absurd rfl hne
  | cons n ns ih =>
    rw [List.length_cons] at hi
    rw [itemsSound_cons] at hsound
    cases ns with
    | nil =>
      obtain ⟨s', b, hshows, hread, hreads⟩ :=
        (h n (by simp)).2 hp hleft (by omega) hs hsound.1 htail
      refine ⟨s', [b], .cons hshows .nil, hread, ?_⟩
      simpa [itemsLines] using hreads
    | cons m ns =>
      rw [List.length_cons] at hi
      have hm := h m (by simp)
      -- the marker of the next item ends this one
      have hclose : Closes (spineOf frames) left
          ((itemsLines cols (List.replicate margin ' ') ordered (index + 1) (m :: ns)).map fullLine ++
            tail) := by
        obtain ⟨t, rest, -, hlines⟩ := itemLines_head hm.1 (itemsSound_cons.mp hsound.2).1
        rw [itemsLines, hlines]
        exact closes_item hp hleft ordered (by omega) _
      obtain ⟨s₁, b, hshows, hread, hreads⟩ :=
        (h n (by simp)).2 hp hleft (by omega) hs hsound.1 hclose
      obtain ⟨s', bs, hall, hread', hreads'⟩ := ih (fun k hk => h k (by simp [hk])) (by simp)
        (by rw [List.length_cons]; omega) (hread.continues hp) hsound.2
      refine ⟨s', b :: bs, .cons hshows hall, by simpa using hread', ?_⟩
      rw [itemsLines, List.map_append, List.append_assoc]
      exact hreads.trans hreads'

theorem itemParagraph_reads {cols : Nat} {frames : List Frame} {done items : List Block}
    {margin left index : Nat} {ordered : Bool} {s : State} {tail : List Line} {next : Option Text}
    {cs : List Node} (hp : Passes (spineOf frames) margin left) (hleft : left < 4)
    (hi : index + 1 < 1000000000)
    (hs : Continues s margin left (listMark ordered)
      (idle (⟨.list (listMark ordered) false, items⟩ :: frames) done))
    (hsound : SoundRun cols ⟨List.replicate margin ' ' ++ marker ordered index,
      List.replicate margin ' ' ++ indentation (marker ordered index)⟩ next cs)
    (htail : Halts (spineOf frames ++ [.list (listMark ordered) false,
      .item (left + (marker ordered index).length)]) next tail) (p : Text) :
    ∃ b, Shows cols (.mk .paragraph p cs) b ∧
      Reads s ((fillLines cols ⟨List.replicate margin ' ' ++ marker ordered index,
          List.replicate margin ' ' ++ indentation (marker ordered index)⟩
          (runTokens cs)).map fullLine ++ tail)
        (idle (⟨.item (left + (marker ordered index).length), [b]⟩ ::
          ⟨.list (listMark ordered) false, items⟩ :: frames) done) tail := by
  have hfirst : OneLine (List.replicate margin ' ' ++ marker ordered index) :=
    oneLine_append.mpr ⟨oneLine_replicate _, oneLine_marker _ _⟩
  have hlater : OneLine (List.replicate margin ' ' ++ indentation (marker ordered index)) := by
    rw [indentation_eq]
    exact oneLine_replicate _
  obtain ⟨t, bodies, hbodies, hlines⟩ := hsound.lines hfirst hlater
  have hcoherent := hsound.coherent
  rw [hbodies] at hcoherent
  have hcalm : Calm t := hcoherent.calm t (by simp)
  obtain ⟨column, henters⟩ := hs.enters hleft hi hcalm
  generalize hS : (idle (⟨.list (listMark ordered) false, items⟩ :: frames) done).push
    (.item (left + (marker ordered index).length)) = S at henters
  have hfinish : S.finishList = S := by
    rw [← hS]
    rfl
  have hspine : S.spine = spineOf frames ++ [.list (listMark ordered) false,
      .item (left + (marker ordered index).length)] := by
    rw [← hS]
    change spineOf (_ :: _ :: frames) = _
    rw [spineOf_cons, spineOf_cons]
    simp
  have hlead : Leads S.spine
      (List.replicate margin ' ' ++ indentation (marker ordered index)) := by
    rw [hspine, indentation_eq]
    exact leads_of_passes (passes_within hp ordered index) (by omega)
  have hhalt : Halts S.spine next tail := hspine ▸ htail
  obtain ⟨content, hspread, hleaf⟩ := readLeaf_paragraph (e := 0) (by omega) column hcoherent hlead
    hhalt (by rwa [hfinish]) (by rwa [hfinish])
  refine ⟨_, .paragraph p hsound (hbodies ▸ hspread), ?_⟩
  rw [hlines, List.map_cons, List.cons_append, List.map_map]
  refine .single ?_ (by simp)
  have hblock := henters.readBlock_leaf hcalm.not_blank (bodies.map (fun b => fullLine
    (List.replicate margin ' ' ++ indentation (marker ordered index) ++ b)) ++ tail)
  rw [hfinish, ← hS] at hleaf
  rw [← hS] at hblock
  exact hblock.trans hleaf

theorem itemsRead_single (frames : List Frame) (done items : List Block) (mark : ListMark)
    {left i : Nat} (hi : left < i) (b : Block) :
    ItemsRead frames done mark left (.item [b] :: items)
      (idle (⟨.item i, [b]⟩ :: ⟨.list mark false, items⟩ :: frames) done) :=
  ⟨_, i, [], rfl, hi, by simp, by rw [spineOf_cons, spineOf_cons]; simp, rfl⟩

theorem item_reads {cols : Nat} {n : Node} (h : Listable n) : ItemReads cols n := by
  induction h with
  | @plain l p cs hcs =>
    intro frames done items margin left index ordered s tail hp hleft hi hs hsound htail
    have hlen := marker_length ordered index
    have hlt : left < left + (marker ordered index).length := by omega
    have hhalt := htail (listMark ordered) false _ [] hlt
    obtain ⟨b, hshows, hreads⟩ := itemParagraph_reads hp hleft hi hs hsound.run hhalt p
    have hread := itemsRead_single frames done items (listMark ordered) hlt b
    refine ⟨_, _, .item l (.cons hshows .nil), hread, ?_⟩
    have hlines : itemLines cols (List.replicate margin ' ') (marker ordered index)
        (.mk .item l [.mk .paragraph p cs]) =
        fillLines cols ⟨List.replicate margin ' ' ++ marker ordered index,
          List.replicate margin ' ' ++ indentation (marker ordered index)⟩ (runTokens cs) := by
      simp [itemLines, nestedLines]
    rw [hlines]
    exact hreads
  | @nested l p o m cs inner hcs hinner ih =>
    intro frames done items margin left index ordered s tail hp hleft hi hs hsound htail
    have hlen := marker_length ordered index
    have hlt : left < left + (marker ordered index).length := by omega
    have hrun := hsound.run
    obtain ⟨⟨hne, hcount⟩, hitems⟩ := hsound.nested
    have hwithin := passes_within hp ordered index
    -- the first line of the nested list ends the paragraph
    obtain ⟨t, rest, ht, hfirst⟩ : ∃ t rest, Calm t ∧
        itemsLines cols (List.replicate (margin + max (marker ordered index).length 3) ' ') o 0
          inner = (List.replicate (margin + max (marker ordered index).length 3) ' ' ++
            marker o 0 ++ t) :: rest := by
      cases inner with
      | nil => exact absurd rfl hne
      | cons k inner =>
        obtain ⟨t, rest, ht, hlines⟩ := itemLines_head (hinner k (by simp)) (itemsSound_cons.mp hitems).1
        exact ⟨t, _, ht, by rw [itemsLines, hlines]; rfl⟩
    have hopening : nestedOpening cols (margin + max (marker ordered index).length 3)
        [.mk (.list o) m inner] = some (marker o 0 ++ t) := by
      rw [nestedOpening, nestedLines, hfirst]
      simp
    rw [hopening] at hrun
    have hhalt := halts_nested hwithin (by omega) o ht (rest.map fullLine ++ tail)
    obtain ⟨b, hshows, hreads⟩ := itemParagraph_reads hp hleft hi hs hrun hhalt p
    -- the nested list is read from there
    have hspine : ∀ bs, spineOf (⟨.item (left + (marker ordered index).length), bs⟩ ::
        ⟨.list (listMark ordered) false, items⟩ :: frames) =
        spineOf frames ++ [.list (listMark ordered) false,
          .item (left + (marker ordered index).length)] := by
      intro bs
      rw [spineOf_cons, spineOf_cons]
      simp
    have hwithin' := hwithin
    rw [← hspine [b]] at hwithin'
    have hclose : Closes (spineOf (⟨.item (left + (marker ordered index).length), [b]⟩ ::
        ⟨.list (listMark ordered) false, items⟩ :: frames))
        (3 - (marker ordered index).length) tail := by
      rw [hspine]
      exact htail.nested _ _ hlt _
    obtain ⟨s', bs, hall, hread, hreads'⟩ := items_read (fun k hk => ⟨hinner k hk, ih k hk⟩) hne
      hwithin' (by omega) (by omega)
      (continues_nested done hwithin' ⟨_, _, _, rfl⟩ (listMark o)) hitems hclose
    rw [List.append_nil] at hread
    have hread' := hread.outer hlt
    rw [listMark_ordered, List.reverse_reverse] at hread'
    refine ⟨s', _, .item l (.cons hshows (.cons (.list o m hall) .nil)), hread', ?_⟩
    rw [itemLines, nestedLines, indentation_eq, List.map_append, List.append_assoc]
    rw [hfirst] at hreads' ⊢
    rw [indentation_eq] at hreads
    exact hreads.trans hreads'

theorem items_oneLines {cols margin : Nat} {ordered : Bool} {ns : List Node}
    (h : ∀ n ∈ ns, ∀ index, ItemSound cols margin (marker ordered index) n →
      ∀ l ∈ itemLines cols (List.replicate margin ' ') (marker ordered index) n, OneLine l)
    {index : Nat} (hsound : ItemsSound cols margin ordered index ns) :
    ∀ l ∈ itemsLines cols (List.replicate margin ' ') ordered index ns, OneLine l := by
  induction ns generalizing index with
  | nil => simp [itemsLines]
  | cons n ns ih =>
    rw [itemsSound_cons] at hsound
    intro l hl
    rw [itemsLines, List.mem_append] at hl
    rcases hl with hl | hl
    · exact h n (by simp) index hsound.1 l hl
    · exact ih (fun m hm => h m (by simp [hm])) hsound.2 l hl

theorem item_oneLines {cols : Nat} {n : Node} (h : Listable n) :
    ∀ {margin index : Nat} {ordered : Bool}, ItemSound cols margin (marker ordered index) n →
      ∀ l ∈ itemLines cols (List.replicate margin ' ') (marker ordered index) n, OneLine l := by
  have hfirst : ∀ margin ordered index,
      OneLine (List.replicate margin ' ' ++ marker ordered index) :=
    fun _ _ _ => oneLine_append.mpr ⟨oneLine_replicate _, oneLine_marker _ _⟩
  have hlater : ∀ margin mk, OneLine (List.replicate margin ' ' ++ indentation mk) := by
    intro margin mk
    rw [indentation_eq]
    exact oneLine_replicate _
  induction h with
  | @plain l p cs hcs =>
    intro margin index ordered hsound
    rw [itemLines, nestedLines, List.append_nil]
    · exact hsound.run.oneLines (hfirst _ _ _) (hlater _ _)
    · simp
  | @nested l p o m cs inner hcs hinner ih =>
    intro margin index ordered hsound line hline
    rw [itemLines, nestedLines, List.mem_append] at hline
    rcases hline with hline | hline
    · exact hsound.run.oneLines (hfirst _ _ _) (hlater _ _) line hline
    · rw [indentation_eq] at hline
      exact items_oneLines (fun k hk index => ih k hk) hsound.nested.2 line hline

end CanonMark.Markdown
