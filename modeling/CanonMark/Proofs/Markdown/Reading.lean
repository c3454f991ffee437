import CanonMark.Proofs.Layout.Lines
import CanonMark.Proofs.Markdown.Paragraph

/-! # Runs of the block reader

The reader is started with fuel. A run says without fuel that reading some lines in a state leads to
another state with other lines left. The blocks that are read show the nodes that were laid out.
-/
namespace CanonMark.Markdown

open Cursor (indented)
open Layout (runTokens cut lineBody fillLines headingLine literals fenceWidth columnWidths rowLine
  rowTexts alignmentOf)

/-- Reading lines in a state reaches another state with some of the lines left. -/
inductive Reads : State → List Line → State → List Line → Prop where
  | refl (s ls) : Reads s ls s ls
  | step {s line following s' rest s'' last} : readBlock s line following = (s', rest) →
      rest.length ≤ following.length → Reads s' rest s'' last →
      Reads s (line :: following) s'' last

theorem Reads.trans {s s' s'' : State} {ls ls' ls'' : List Line} (h : Reads s ls s' ls')
    (k : Reads s' ls' s'' ls'') : Reads s ls s'' ls'' := by
  induction h with
  | refl => exact k
  | step hb hle _ ih => exact .step hb hle (ih k)

theorem Reads.single {s s' : State} {line : Line} {following rest : List Line}
    (h : readBlock s line following = (s', rest)) (hle : rest.length ≤ following.length) :
    Reads s (line :: following) s' rest :=
  .step h hle (.refl _ _)

theorem Reads.readBlocks {s s' : State} {ls ls' : List Line} (h : Reads s ls s' ls') (hls : ls' = [])
    {fuel : Nat} (hf : ls.length ≤ fuel) : readBlocks fuel s ls = s' := by
  induction h generalizing fuel with
  | refl s ls =>
    subst hls
    cases fuel <;> rfl
  | step hb hle _ ih =>
    cases fuel with
    | zero => simp at hf
    | succ fuel =>
      rw [Markdown.readBlocks, hb]
      refine ih hls ?_
      simp only [List.length_cons] at hf
      omega

namespace State

def idle (frames : List Frame) (done : List Block) : State := ⟨frames, done, [], false, false⟩

theorem closeMany_add (s : State) (m n : Nat) :
    s.closeMany (m + n) = (s.closeMany m).closeMany n := by
  induction m generalizing s with
  | zero => simp [closeMany]
  | succ m ih => rw [Nat.succ_add, closeMany, closeMany, ih]

theorem finishList_idle {frames : List Frame} (done : List Block)
    (h : ∀ f ∈ frames.head?, ∀ mark loose, f.container ≠ .list mark loose) :
    (idle frames done).finishList = idle frames done := by
  cases frames with
  | nil => rfl
  | cons f frames =>
    obtain ⟨container, blocks⟩ := f
    cases container with
    | list mark loose => exact absurd rfl (h _ rfl mark loose)
    | _ => rfl

end State

/-- From `s`, a line leads into the containers of `S` and to a place there. -/
def Enters (s : State) (line : Text) (S : State) (cur : Cursor) : Prop :=
  ∃ left start, pass (.ofText line) s.spine = (left, start) ∧
    openContainers (start.rest.length + 1) (s.closeMany left.length) start = (S, some cur)

theorem Enters.readBlock_leaf {s S : State} {line : Text} {cur : Cursor} (h : Enters s line S cur)
    (hb : cur.isBlank = false) (following : List Line) :
    readBlock s (fullLine line) following = readLeaf S cur ['\n'] following := by
  obtain ⟨left, start, hpass, hopen⟩ := h
  have hpass' : pass (fullLine line).start s.spine = (left, start) := hpass
  simp only [readBlock, hpass', hopen, hb]
  rfl

theorem Enters.readBlock_blank {s S : State} {line : Text} {cur : Cursor} (h : Enters s line S cur)
    (hb : cur.isBlank = true) (following : List Line) :
    readBlock s (fullLine line) following = (S.blankLine, following) := by
  obtain ⟨left, start, hpass, hopen⟩ := h
  have hpass' : pass (fullLine line).start s.spine = (left, start) := hpass
  simp only [readBlock, hpass', hopen, hb]
  rfl

theorem openContainers_none (s : State) {t : Text} (hf : Flush t) (hm : listMarker? t = none)
    (hq : t.head? ≠ some '>') {e : Nat} (he : e < 4) (column fuel : Nat) :
    openContainers (fuel + 1) s (indented e t column) = (s, some (indented e t column)) := by
  have hnot : ¬ e ≥ 4 := by omega
  have hmarker : (indented 0 t (column + e)).listMarker? e = none := by
    simp [Cursor.listMarker?, indented_zero_rest, hm]
  have hquote : (indented 0 t (column + e)).quoteMark? = none := by
    simp [Cursor.quoteMark?, indented_zero_rest, hq]
  simp only [openContainers, indented_skip_four he hf, if_neg hnot, hmarker, hquote]

theorem openContainers_stop (s : State) {t : Text} (ht : t = [] ∨ Calm t) {e : Nat} (he : e < 4)
    (column fuel : Nat) :
    openContainers (fuel + 1) s (indented e t column) = (s, some (indented e t column)) := by
  rcases ht with rfl | ht
  · exact openContainers_none s flush_nil rfl (by simp) he column fuel
  · exact openContainers_none s ht.flush ht.marker ht.quote he column fuel

/-- A run whose filled lines are read back as one paragraph. -/
@[mk_iff] structure SoundRun (cols : Nat) (margin : Layout.Margin) (next : Option Text) (cs : List Node) :
    Prop where
  tokens : runTokens cs ≠ []
  oneLine : ∀ t ∈ runTokens cs, OneLine t
  tame : ∀ g ∈ cut cols margin (runTokens cs), ∀ t ∈ g.head?, Tame t
  untagged : ∀ l ∈ ((cut cols margin (runTokens cs)).map lineBody).head?, Html.isTagLine l = false
  headless : headless ((cut cols margin (runTokens cs)).map lineBody ++ next.toList) = true
  undefined : startsDefinition
    (Text.join ['\n'] ((cut cols margin (runTokens cs)).map lineBody)) = false

instance (cols : Nat) (margin : Layout.Margin) (next : Option Text) (cs : List Node) :
    Decidable (SoundRun cols margin next cs) :=
  decidable_of_iff _ (soundRun_iff cols margin next cs).symm

theorem SoundRun.coherent {cols : Nat} {margin : Layout.Margin} {next : Option Text}
    {cs : List Node} (h : SoundRun cols margin next cs) :
    Coherent ((cut cols margin (runTokens cs)).map lineBody) next := by
  refine ⟨fun l hl => ?_, h.untagged, h.headless, h.undefined⟩
  obtain ⟨g, hg, rfl⟩ := List.mem_map.mp hl
  have hone : ∀ t ∈ g, OneLine t := by
    intro t ht
    refine h.oneLine t ?_
    rw [← Layout.cut_flatten cols margin (runTokens cs)]
    exact List.mem_flatten.mpr ⟨g, hg, ht⟩
  cases g with
  | nil => exact absurd rfl (Layout.cut_nonempty cols margin _ [] hg)
  | cons t ts => exact calm_lineBody (h.tame _ hg t rfl) hone

theorem oneLine_groupLines {cols : Nat} {margin : Layout.Margin} {ts : List Text}
    (hone : ∀ t ∈ ts, OneLine t) (hfirst : OneLine margin.first) (hlater : OneLine margin.later) :
    ∀ l ∈ Layout.groupLines margin (cut cols margin ts), OneLine l := by
  intro l hl
  have hbody : ∀ g ∈ cut cols margin ts, OneLine (lineBody g) := by
    intro g hg
    refine oneLine_lineBody fun t ht => hone t ?_
    rw [← Layout.cut_flatten cols margin ts]
    exact List.mem_flatten.mpr ⟨g, hg, ht⟩
  cases hc : cut cols margin ts with
  | nil => simp [hc, Layout.groupLines] at hl
  | cons g gs =>
    rw [hc] at hl hbody
    rcases List.mem_cons.mp hl with rfl | hl
    · exact oneLine_append.mpr ⟨hfirst, hbody g (by simp)⟩
    · obtain ⟨k, hk, rfl⟩ := List.mem_map.mp hl
      exact oneLine_append.mpr ⟨hlater, hbody k (by simp [hk])⟩

section

variable {cols : Nat} {margin : Layout.Margin} {next : Option Text} {cs : List Node}
  (h : SoundRun cols margin next cs) (hfirst : OneLine margin.first) (hlater : OneLine margin.later)
include h hfirst hlater

theorem SoundRun.fillLines_eq : fillLines cols margin (runTokens cs) =
    Layout.groupLines margin (cut cols margin (runTokens cs)) := by
  rw [fillLines, Layout.fill_eq_unlines _ _ _ (Layout.runTokens_nonempty cs)]
  exact Layout.lines_unlines fun l hl => (oneLine_groupLines h.oneLine hfirst hlater l hl).1

theorem SoundRun.oneLines : ∀ l ∈ fillLines cols margin (runTokens cs), OneLine l := by
  rw [h.fillLines_eq hfirst hlater]
  exact oneLine_groupLines h.oneLine hfirst hlater

theorem SoundRun.lines : ∃ t bodies, (cut cols margin (runTokens cs)).map lineBody = t :: bodies ∧
    fillLines cols margin (runTokens cs) =
      (margin.first ++ t) :: bodies.map (margin.later ++ ·) := by
  rw [h.fillLines_eq hfirst hlater]
  cases hc : cut cols margin (runTokens cs) with
  | nil => exact absurd hc (Layout.cut_ne_nil h.tokens)
  | cons g gs => exact ⟨lineBody g, gs.map lineBody, rfl, by simp [Layout.groupLines]⟩

end

def shownRow (widths : List Nat) (row : Node) : List Content :=
  fitRow widths.length (cells (rowLine (rowTexts row) widths))

mutual
/-- A block shows a node: it has the node's shape, and its content was read from the node's lines.
-/
inductive Shows (cols : Nat) : Node → Block → Prop where
  | heading (level l cs) : Shows cols (.mk (.heading level) l cs)
      (.heading level (headingContent ((headingLine level (literals cs)).drop level)))
  | code (fenced length info code cs) : Shows cols (.mk (.codeBlock fenced length info) code cs)
      (.fenced (fenceWidth fenced length) (Text.trim (Text.decode (trimSpacing info))) code)
  | table (alignments l a b header rows) {widths} : widths = columnWidths alignments
        header.children.length (rowTexts header :: rows.map rowTexts) →
      Shows cols
        (.mk (.table alignments) l [.mk .tableHead a [header], .mk .tableBody b rows])
        (.table ((List.range header.children.length).map (alignmentOf alignments))
          (shownRow widths header) (rows.map (shownRow widths)))
  | paragraph (l) {margin next cs content} : SoundRun cols margin next cs →
      Spreads ((cut cols margin (runTokens cs)).map lineBody) content →
      Shows cols (.mk .paragraph l cs) (.paragraph content.trimEnd)
  | quote (l) {ns bs} : ShowsAll cols ns bs → Shows cols (.mk .quote l ns) (.quote bs)
  | item (l) {ns bs} : ShowsAll cols ns bs → Shows cols (.mk .item l ns) (.item bs)
  | list (ordered l) {ns bs} : ShowsAll cols ns bs →
      Shows cols (.mk (.list ordered) l ns) (.list ordered true bs)

inductive ShowsAll (cols : Nat) : List Node → List Block → Prop where
  | nil : ShowsAll cols [] []
  | cons {n ns b bs} : Shows cols n b → ShowsAll cols ns bs → ShowsAll cols (n :: ns) (b :: bs)
end

end CanonMark.Markdown
