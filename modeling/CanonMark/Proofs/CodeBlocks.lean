import CanonMark.Format
import CanonMark.Proofs.Markdown.FirstBlock
import CanonMark.Proofs.Markdown.Leaves
import CanonMark.Proofs.Text.Decoding
import CanonMark.Proofs.Text.Trimming

/-! # Code blocks

A code block is written between fences of backticks with its code as it is. Main statement: a
document that is one code block is read back from its canonical form exactly if its info string
stands for itself and each line of the code has an end of one character and does not close the
fence.
-/
namespace CanonMark

namespace Markdown

open Cursor (indented)

def readInfo (t : Text) : Text := Text.trim (Text.decode (trimSpacing t))

theorem readInfo_length (t : Text) : (readInfo t).length ≤ t.length :=
  calc (readInfo t).length
    _ ≤ (Text.decode (trimSpacing t)).length := (Text.infix_strip _ _).length_le
    _ ≤ (trimSpacing t).length := Text.decodeWith_length _ _
    _ ≤ t.length := (Text.infix_strip _ _).length_le

def Line.ended (l : Line) : Prop :=
  l.ending = ['\n'] ∨ l.ending = ['\r'] ∨ l.ending = ['\r', '\n']

theorem Line.ended.ne_nil {l : Line} (h : l.ended) : l.ending ≠ [] := by
  rcases h with h | h | h <;> simp [h]

def written (ls : List Line) : Text := ls.flatMap fun l => l.text ++ l.ending

theorem written_linesFrom (line t : Text) : written (linesFrom line t) = line.reverse ++ t := by
  fun_induction linesFrom line t <;> simp_all [written]

theorem linesFrom_append (line a : Text) {b : Text} (hb : b.head? ≠ some '\n') :
    ∃ done last, linesFrom line a = done ++ linesFrom last [] ∧
      linesFrom line (a ++ b) = done ++ linesFrom last b ∧ ∀ l ∈ done, l.ended := by
  fun_induction linesFrom line a with
  | case1 line hline => exact ⟨[], line, by simp [linesFrom, hline], rfl, by simp⟩
  | case2 line hline => exact ⟨[], line, by simp [linesFrom, hline], rfl, by simp⟩
  | case3 line t ih =>
    obtain ⟨done, last, hshort, hlong, hended⟩ := ih
    refine ⟨⟨line.reverse, ['\n']⟩ :: done, last, by rw [hshort]; rfl, ?_, ?_⟩
    · rw [List.cons_append, linesFrom, hlong]
      rfl
    · simpa [Line.ended] using hended
  | case4 line t ih =>
    obtain ⟨done, last, hshort, hlong, hended⟩ := ih
    refine ⟨⟨line.reverse, ['\r', '\n']⟩ :: done, last, by rw [hshort]; rfl, ?_, ?_⟩
    · rw [List.cons_append, List.cons_append, linesFrom, hlong]
      rfl
    · simpa [Line.ended] using hended
  | case5 line t ht ih =>
    obtain ⟨done, last, hshort, hlong, hended⟩ := ih
    have hnext : ∀ u, t ++ b ≠ '\n' :: u := by
      intro u hu
      cases t with
      | nil => exact hb (by rw [List.nil_append] at hu; rw [hu]; rfl)
      | cons c t => exact ht t (by rw [(List.cons.inj hu).1])
    refine ⟨⟨line.reverse, ['\r']⟩ :: done, last, by rw [hshort]; rfl, ?_, ?_⟩
    · rw [List.cons_append, linesFrom, hlong]
      · rfl
      · exact hnext
    · simpa [Line.ended] using hended
  | case6 line c t hn hrn hr ih =>
    obtain ⟨done, last, hshort, hlong, hended⟩ := ih
    refine ⟨done, last, hshort, ?_, hended⟩
    rw [List.cons_append, linesFrom, hlong]
    · exact hn
    · exact fun _ e => absurd e hr
    · exact hr

def firstLine (t : Text) : Text := t.takeWhile fun c => c != '\n' && c != '\r'

theorem firstLine_length (t : Text) : (firstLine t).length ≤ t.length :=
  (List.takeWhile_prefix _).length_le

theorem oneLine_of_firstLine {t : Text} (h : t.length ≤ (firstLine t).length) :
    firstLine t = t ∧ OneLine t := by
  have hwhole : firstLine t = t :=
    (List.takeWhile_prefix _).eq_of_length (Nat.le_antisymm (firstLine_length t) h)
  have hall : ∀ c ∈ t, c ≠ '\n' ∧ c ≠ '\r' := by
    simpa [firstLine] using hwhole
  exact ⟨hwhole, fun hn => (hall _ hn).1 rfl, fun hr => (hall _ hr).2 rfl⟩

theorem linesFrom_first (line t rest : Text) : ∃ ending following,
    linesFrom line (t ++ '\n' :: rest) = ⟨line.reverse ++ firstLine t, ending⟩ :: following := by
  induction t generalizing line with
  | nil => exact ⟨['\n'], linesFrom [] rest, by simp [linesFrom, firstLine]⟩
  | cons c t ih =>
    by_cases hn : c = '\n'
    · exact ⟨['\n'], linesFrom [] (t ++ '\n' :: rest), by simp [hn, linesFrom, firstLine]⟩
    by_cases hr : c = '\r'
    · have hshort : firstLine (c :: t) = [] := by simp [hr, firstLine]
      rw [hshort, hr, List.cons_append, List.append_nil]
      by_cases hnext : ∃ u, t ++ '\n' :: rest = '\n' :: u
      · obtain ⟨u, hu⟩ := hnext
        exact ⟨['\r', '\n'], linesFrom [] u, by rw [hu, linesFrom]⟩
      · refine ⟨['\r'], linesFrom [] (t ++ '\n' :: rest), ?_⟩
        rw [linesFrom]
        exact fun u hu => hnext ⟨u, hu⟩
    · obtain ⟨ending, following, h⟩ := ih (c :: line)
      refine ⟨ending, following, ?_⟩
      rw [List.cons_append, linesFrom, h]
      · simp [firstLine, hn, hr]
      · exact hn
      · exact fun _ e => absurd e hr
      · exact hr

/-- Whether a line is read within a fence of so many backticks as it is written. -/
def enclosable (width : Nat) (l : Line) : Bool :=
  (l.ending == ['\n'] || l.ending == ['\r']) && !endsFence width l.text

theorem literalEnd_of_single {ending : Text} (h : ending = ['\n'] ∨ ending = ['\r']) :
    literalEnd ending = ending := by
  rcases h with h | h <;> rw [h] <;> rfl

theorem fencedLines_enclosable {width : Nat} {ls : List Line}
    (h : ∀ l ∈ ls, enclosable width l = true) (tail : List Line) :
    fencedLines [] 0 '\x60' width (ls ++ tail) =
      (written ls ++ (fencedLines [] 0 '\x60' width tail).1,
        (fencedLines [] 0 '\x60' width tail).2) := by
  induction ls with
  | nil => rfl
  | cons l ls ih =>
    have hl : (l.ending = ['\n'] ∨ l.ending = ['\r']) ∧ endsFence width l.text = false := by
      simpa [enclosable] using h l (by simp)
    have hended : l.ending ≠ [] := by
      rcases hl.1 with he | he <;> simp [he]
    rw [List.cons_append, fencedLines_cons width hended, ih fun m hm => h m (by simp [hm]), hl.2,
      literalEnd_of_single hl.1]
    simp [written]

theorem enclosable_of_fencedLines {width : Nat} {ls tail : List Line} {t : Text}
    (hended : ∀ l ∈ ls, l.ended)
    (h : (fencedLines [] 0 '\x60' width (ls ++ tail)).1 = written ls ++ t) :
    (∀ l ∈ ls, enclosable width l = true) ∧ (fencedLines [] 0 '\x60' width tail).1 = t := by
  induction ls with
  | nil => exact ⟨by simp, h⟩
  | cons l ls ih =>
    have hl : l.ended := hended l (by simp)
    rw [List.cons_append, fencedLines_cons width hl.ne_nil] at h
    have hwritten : written (l :: ls) ++ t = l.text ++ (l.ending ++ (written ls ++ t)) := by
      simp [written]
    rw [hwritten] at h
    have hopen : endsFence width l.text = false := by
      by_contra hcloses
      rw [if_pos (by simpa using hcloses)] at h
      rcases hl with hl | hl | hl <;> simp [hl] at h
    rw [hopen, if_neg (by simp), List.append_assoc, List.append_cancel_left_eq] at h
    -- a line feed stands where a carriage return is written before one
    have hending : l.ending = ['\n'] ∨ l.ending = ['\r'] := by
      rcases hl with hl | hl | hl
      · exact .inl hl
      · exact .inr hl
      · rw [hl] at h
        cases h
    rw [literalEnd_of_single hending, List.append_cancel_left_eq] at h
    obtain ⟨hls, htail⟩ := ih (fun m hm => hended m (by simp [hm])) h
    refine ⟨?_, htail⟩
    intro m hm
    rcases List.mem_cons.mp hm with rfl | hm
    · simp [enclosable, hending, hopen]
    · exact hls m hm

theorem lines_fence (width : Nat) (last : Text) :
    linesFrom last (List.replicate width '\x60' ++ ['\n']) =
      [fullLine (last.reverse ++ List.replicate width '\x60')] :=
  linesFrom_of_oneLine ⟨by simp, by simp⟩ last []

theorem lines_code {width : Nat} (hw : 0 < width) (code : Text) :
    ∃ done last, lines code = done ++ linesFrom last [] ∧ code = written done ++ last.reverse ∧
      lines (code ++ (List.replicate width '\x60' ++ ['\n'])) =
        done ++ [fullLine (last.reverse ++ List.replicate width '\x60')] ∧ ∀ l ∈ done, l.ended := by
  have hhead : (List.replicate width '\x60' ++ ['\n']).head? ≠ some '\n' := by
    obtain ⟨k, rfl⟩ := Nat.exists_eq_add_of_le' hw
    simp [List.replicate_succ]
  obtain ⟨done, last, hshort, hlong, hended⟩ := linesFrom_append [] code hhead
  rw [lines_fence] at hlong
  refine ⟨done, last, hshort, ?_, hlong, hended⟩
  have hcode := written_linesFrom [] code
  have hlast := written_linesFrom last []
  rw [hshort, written, List.flatMap_append, ← written, ← written, hlast] at hcode
  simpa using hcode.symm

theorem fencedLines_code {width : Nat} (hw : 0 < width) {code : Text}
    (h : ∀ l ∈ lines code, enclosable width l = true) :
    fencedLines [] 0 '\x60' width (lines (code ++ (List.replicate width '\x60' ++ ['\n']))) =
      (code, []) := by
  obtain ⟨done, last, hshort, hcode, hlong, -⟩ := lines_code hw code
  rw [hshort] at h
  have hlast : last = [] := by
    by_contra hne
    have hend := h ⟨last.reverse, []⟩ (by simp [linesFrom, hne])
    simp [enclosable] at hend
  subst hlast
  rw [hlong, fencedLines_enclosable fun l hl => h l (by simp [hl]),
    fencedLines_cons width (by simp [fullLine])]
  simp [fullLine, endsFence_fence hw, hcode]

theorem enclosable_of_code {width : Nat} (hw : 0 < width) {code more : Text} (hmore : more.length ≤ 1)
    (h : (fencedLines [] 0 '\x60' width
      (lines (code ++ (List.replicate width '\x60' ++ ['\n'])))).1 = code ++ more) :
    ∀ l ∈ lines code, enclosable width l = true := by
  obtain ⟨done, last, hshort, hcode, hlong, hended⟩ := lines_code hw code
  rw [hlong] at h
  rw [hcode, List.append_assoc] at h
  obtain ⟨hdone, htail⟩ := enclosable_of_fencedLines hended h
  -- a fence behind a last line without an end becomes part of the code, or takes the line with it
  have hlast : last = [] := by
    by_contra hne
    rw [fencedLines_cons width (by simp [fullLine])] at htail
    split at htail
    · simp [hne] at htail
    · have hlen := congrArg List.length htail
      simp [fullLine, literalEnd, fencedLines] at hlen
      omega
  rw [hshort, hlast]
  simpa [linesFrom] using hdone

theorem runLength_replicate_append (c : Char) (n : Nat) (t : Text) :
    Text.runLength c (List.replicate n c ++ t) = n + Text.runLength c t := by
  have hall : ∀ d ∈ List.replicate n c, (d == c) = true := by simp
  rw [Text.runLength, List.takeWhile_append_of_pos hall, List.length_append, List.length_replicate]
  rfl

theorem fence_begins {width : Nat} (hw : 0 < width) (t : Text) :
    ∃ u, List.replicate width '\x60' ++ t = '\x60' :: u := by
  obtain ⟨k, rfl⟩ := Nat.exists_eq_add_of_le' hw
  exact ⟨_, rfl⟩

/-- A line that begins with a backtick opens a fence or a paragraph. -/
theorem readBlock_backtick (t ending : Text) (following : List Line) :
    readBlock .initial ⟨'\x60' :: t, ending⟩ following =
      match fence? ('\x60' :: t) with
      | some (mark, length) => readFenced .initial 0 mark length ('\x60' :: t) following
      | none => readParagraph .initial ('\x60' :: t) ending following := by
  have hplain : Plain ('\x60' :: t) := plain_of_head t rfl (by decide) rfl
  have hmarker : listMarker? ('\x60' :: t) = none := by simp [listMarker?, Text.isDigit]
  have hlevel : headingLevel? ('\x60' :: t) = none := by simp [headingLevel?, Text.runLength]
  have hdefinition : ∀ further, definition? (joinLines ('\x60' :: t) ending further) = none := by
    intro further
    cases further <;> rfl
  have hopen := openContainers_none .initial hplain.flush hmarker (by simp) (e := 0) (by omega) 0
    ('\x60' :: t).length
  have hblank : (indented 0 ('\x60' :: t) 0).isBlank = false := rfl
  have hstart : pass (Line.start ⟨'\x60' :: t, ending⟩) State.initial.spine =
      ([], indented 0 ('\x60' :: t) 0) := rfl
  have hclosed : State.initial.closeMany ([] : List Container).length = .initial := rfl
  simp only [readBlock, hstart, hclosed, indented_zero_rest, hopen, hblank, readLeaf,
    indented_skip_four (e := 0) (by omega) hplain.flush, hplain.html, hplain.tag, hplain.line,
    hplain.thematic, hlevel, readDefinitions, hdefinition]
  cases fence? ('\x60' :: t) <;> rfl

theorem fence?_backtick {t : Text} {mark : Char} {length : Nat}
    (h : fence? ('\x60' :: t) = some (mark, length)) :
    mark = '\x60' ∧ length = Text.runLength '\x60' ('\x60' :: t) ∧ 3 ≤ length ∧
      '\x60' ∉ ('\x60' :: t).drop length := by
  unfold fence? at h
  dsimp only at h
  split at h
  · cases h
  · next hlong =>
    rw [if_neg (by decide)] at h
    split at h
    · next hfree =>
      obtain ⟨rfl, rfl⟩ : '\x60' = mark ∧ Text.runLength '\x60' ('\x60' :: t) = length := by
        simpa using h
      refine ⟨rfl, rfl, by omega, fun hmem => ?_⟩
      have hany : (('\x60' :: t).drop (Text.runLength '\x60' ('\x60' :: t))).any (· == '\x60') = true :=
        List.any_eq_true.mpr ⟨_, hmem, rfl⟩
      rw [hany] at hfree
      cases hfree
    · cases h

section

variable {source t ending : Text} {following : List Line}
  (hlines : lines source = ⟨'\x60' :: t, ending⟩ :: following)
include hlines

theorem first_of_fence {length : Nat} (hfence : fence? ('\x60' :: t) = some ('\x60', length)) :
    (parse source).children.head? =
      some (.leaf (.codeBlock true length (readInfo (('\x60' :: t).drop length)))
        (fencedLines [] 0 '\x60' length following).1) := by
  have hread := readBlock_backtick t ending following
  rw [hfence] at hread
  obtain ⟨bs, definitions, hblocks⟩ := blocks_begin hlines hread rfl
  exact parse_first hblocks rfl (fenced_adds definitions false _ _ _ _)

theorem first_of_no_fence (hfence : fence? ('\x60' :: t) = none) {n : Node}
    (hn : (parse source).children.head? = some n) : n.kind.isCodeBlock = false := by
  have hread := readBlock_backtick t ending following
  rw [hfence] at hread
  obtain ⟨b, hwordy, hb⟩ := readParagraph_wordy .initial ('\x60' :: t) ending following
  have hfirst : (readParagraph .initial ('\x60' :: t) ending following).1.blocks = [b] := by
    rw [hb]
    rfl
  obtain ⟨bs, definitions, hblocks⟩ := blocks_begin hlines hread hfirst
  obtain ⟨m, hadds, hkind, htext⟩ := hwordy definitions (max source.byteLength leastAllowance)
  rw [parse_first hblocks htext hadds] at hn
  rw [← Option.some.inj hn]
  exact hkind

end

def fencedText (width : Nat) (info code : Text) : Text :=
  List.replicate width '\x60' ++ (info ++ '\n' :: (code ++ (List.replicate width '\x60' ++ ['\n'])))

/-- An info string and code that fences of so many backticks keep: the info string stands for itself
on one line, and each line of the code has an end and does not close the fence. -/
@[mk_iff] structure Fenceable (width : Nat) (info code : Text) : Prop where
  long : 3 ≤ width
  free : '\x60' ∉ info
  oneLine : OneLine info
  plain : readInfo info = info
  body : ∀ l ∈ lines code, enclosable width l = true

instance (width : Nat) (info code : Text) : Decidable (Fenceable width info code) :=
  decidable_of_iff _ (fenceable_iff width info code).symm

/-- A document of one code block with this info string and this code, to which a line end may be
added if it has none at its end. -/
def holdsCode (info code : Text) : Node → Bool
  | .mk .document _ [.mk (.codeBlock _ _ i) c _] =>
    i == info && (c == code || code.getLast? != some '\n' && c == code ++ ['\n'])
  | _ => false

theorem holdsCode_iff {info code : Text} {root : Node} : holdsCode info code root = true ↔
    ∃ l fenced length c cs, root = .mk .document l [.mk (.codeBlock fenced length info) c cs] ∧
      (c = code ∨ code.getLast? ≠ some '\n' ∧ c = code ++ ['\n']) := by
  constructor
  · intro h
    unfold holdsCode at h
    split at h
    · next l fenced length i c cs =>
      obtain ⟨rfl, hc⟩ : i = info ∧ (c = code ∨ code.getLast? ≠ some '\n' ∧ c = code ++ ['\n']) := by
        simpa using h
      exact ⟨l, fenced, length, c, cs, rfl, hc⟩
    · cases h
  · rintro ⟨l, fenced, length, c, cs, rfl, hc⟩
    simpa [holdsCode] using hc

section

variable {width : Nat} {info code : Text}

theorem opening_line (width : Nat) (h : OneLine info) (rest : Text) :
    lines (List.replicate width '\x60' ++ (info ++ '\n' :: rest)) =
      fullLine (List.replicate width '\x60' ++ info) :: lines rest := by
  have hone : OneLine (List.replicate width '\x60' ++ info) :=
    oneLine_append.mpr ⟨⟨by simp, by simp⟩, h⟩
  have hline := linesFrom_of_oneLine hone [] rest
  rwa [List.append_assoc] at hline

theorem Fenceable.parse_eq (h : Fenceable width info code) :
    parse (fencedText width info code) =
      .branch .document [.leaf (.codeBlock true width info) code] := by
  have hw : 0 < width := by have := h.long; omega
  have hlines := opening_line width h.oneLine
    (code ++ (List.replicate width '\x60' ++ ['\n']))
  have hfence := fence?_replicate h.long h.free
  have hdrop : (List.replicate width '\x60' ++ info).drop width = info := by simp
  obtain ⟨u, hu⟩ := fence_begins hw info
  rw [hu] at hlines hfence hdrop
  have hread := readBlock_backtick u ['\n']
    (lines (code ++ (List.replicate width '\x60' ++ ['\n'])))
  have hinfo : Text.trim (Text.decode (trimSpacing (('\x60' :: u).drop width))) = info := by
    rw [hdrop]
    exact h.plain
  have hcode : fencedLines State.initial.finishList.spine 0 '\x60' width
      (lines (code ++ (List.replicate width '\x60' ++ ['\n']))) = (code, []) :=
    fencedLines_code hw h.body
  simp only [hfence, readFenced, hinfo, hcode] at hread
  have hreads : Reads .initial (lines (fencedText width info code))
      (State.initial.finishList.add (.fenced width info code)) [] := by
    rw [fencedText, hlines]
    exact .single hread (by simp)
  have hblocks : blocks (fencedText width info code) = ([.fenced width info code], []) := by
    simp only [blocks, hreads.readBlocks rfl (Nat.le_refl _)]
    rfl
  rw [parse_of_blocks hblocks]
  rfl

theorem fenceable_of_parse (hw : 0 < width) {l c more : Text} {fenced : Bool} {length : Nat}
    {cs : List Node} (h : parse (fencedText width info code) =
      .mk .document l [.mk (.codeBlock fenced length info) c cs])
    (hc : c = code ++ more) (hmore : more.length ≤ 1) : Fenceable width info code := by
  have hfirst : (parse (fencedText width info code)).children.head? =
      some (.mk (.codeBlock fenced length info) c cs) := by
    rw [h]
    rfl
  obtain ⟨ending, following, hlines⟩ := linesFrom_first [] (List.replicate width '\x60' ++ info)
    (code ++ (List.replicate width '\x60' ++ ['\n']))
  have hopening : firstLine (List.replicate width '\x60' ++ info) =
      List.replicate width '\x60' ++ firstLine info :=
    List.takeWhile_append_of_pos (by simp)
  obtain ⟨u, hu⟩ := fence_begins hw (firstLine info)
  rw [hopening, hu, List.reverse_nil, List.nil_append, List.append_assoc] at hlines
  cases hopens : fence? ('\x60' :: u) with
  | none => cases first_of_no_fence hlines hopens hfirst
  | some found =>
    obtain ⟨mark, run⟩ := found
    obtain ⟨rfl, hrun, hlong, hfree⟩ := fence?_backtick hopens
    have hsame := (first_of_fence hlines hopens).symm.trans hfirst
    obtain ⟨hinfo, hbody⟩ : readInfo (('\x60' :: u).drop run) = info ∧
        (fencedLines [] 0 '\x60' run following).1 = c := by
      simp only [Node.leaf, Option.some.injEq, Node.mk.injEq, Kind.codeBlock.injEq] at hsame
      exact ⟨hsame.1.2.2, hsame.2.1⟩
    -- the info string is no shorter than its first line without the backticks it begins with
    have hextra : run = width ∧ info.length ≤ (firstLine info).length := by
      have hlen := readInfo_length (('\x60' :: u).drop run)
      rw [hinfo, ← hu, List.length_drop, List.length_append, List.length_replicate] at hlen
      have hwidth := runLength_replicate_append '\x60' width (firstLine info)
      have hticks : Text.runLength '\x60' (firstLine info) ≤ (firstLine info).length :=
        (List.takeWhile_prefix _).length_le
      have hshort := firstLine_length info
      rw [hu, ← hrun] at hwidth
      omega
    obtain ⟨rfl, hwhole⟩ := hextra
    obtain ⟨hwhole, hone⟩ := oneLine_of_firstLine hwhole
    rw [← hu, hwhole, List.drop_left' (by simp)] at hfree hinfo
    have hfollowing : following = lines (code ++ (List.replicate run '\x60' ++ ['\n'])) := by
      have hsame := opening_line run hone (code ++ (List.replicate run '\x60' ++ ['\n']))
      rw [lines, hlines] at hsame
      exact (List.cons.inj hsame).2
    rw [hfollowing, hc] at hbody
    exact ⟨hlong, hfree, hone, hinfo, enclosable_of_code hw hmore hbody⟩

end

end Markdown

open Layout (fenceWidth_pos)
open Markdown

theorem format_code {source l info code : Text} {fenced : Bool} {length : Nat} {cs : List Node}
    (h : parse source = .mk .document l [.mk (.codeBlock fenced length info) code cs])
    (options : Layout.Options) :
    format options source = .ok (fencedText (Layout.fenceWidth fenced length) info code) := by
  generalize hw : Layout.fenceWidth fenced length = width
  have hlaid : Layout.codeBlock fenced length info code ++ [] =
      fencedText width info code ++ ['\n'] := by
    simp [Layout.codeBlock, fencedText, ← hw, Layout.fenceWidth]
  have hsuffix : "\n\n".toList.isSuffixOf (fencedText width info code ++ ['\n']) = true := by
    rw [List.isSuffixOf_iff_suffix]
    exact ⟨List.replicate width '\x60' ++ (info ++ '\n' :: (code ++ List.replicate width '\x60')),
      by simp [fencedText]⟩
  have hlong : ∀ c, fencedText width info code ≠ [c] := by
    intro c hc
    have hpos := fenceWidth_pos fenced length
    have hlen := congrArg List.length hc
    simp [fencedText] at hlen
    omega
  have hfinish : Layout.finish (fencedText width info code ++ ['\n']) = fencedText width info code := by
    rw [Layout.finish, if_pos hsuffix, List.dropLast_concat]
    split
    · next c hc => exact absurd hc (hlong c)
    · rfl
  rw [format, h]
  change Except.ok (Layout.finish (Layout.codeBlock fenced length info code ++ [])) = _
  rw [hlaid, hfinish]

/-- A document that is one code block, fenced or indented, is laid out at every width, and is read
back with its info string and its code exactly if these can be fenced. -/
theorem format_keeps_code_iff {source l info code : Text} {fenced : Bool} {length : Nat}
    {cs : List Node}
    (h : parse source = .mk .document l [.mk (.codeBlock fenced length info) code cs])
    (options : Layout.Options) :
    ∃ t, format options source = .ok t ∧
      (holdsCode info code (parse t) = true ↔
        Fenceable (Layout.fenceWidth fenced length) info code) := by
  refine ⟨_, format_code h options, ?_⟩
  constructor
  · intro hread
    obtain ⟨l', f, n, c, cs', hparse, hc⟩ := holdsCode_iff.mp hread
    have hw := fenceWidth_pos fenced length
    rcases hc with hc | ⟨-, hc⟩
    · exact fenceable_of_parse hw hparse (hc.trans (List.append_nil code).symm) (by simp)
    · exact fenceable_of_parse hw hparse hc (by simp)
  · intro hfenceable
    exact holdsCode_iff.mpr ⟨[], true, _, code, [], hfenceable.parse_eq, .inl rfl⟩

/-- Tildes become backticks, here four of them, within which three stand for themselves. -/
theorem format_keeps_code_iff_tildes :
    parse "~~~~ rs\n\x60\x60\x60\n~~~~".toList =
        .branch .document [.leaf (.codeBlock true 4 "rs".toList) "\x60\x60\x60\n".toList] ∧
      ∃ t, format ⟨80⟩ "~~~~ rs\n\x60\x60\x60\n~~~~".toList = .ok t ∧
        holdsCode "rs".toList "\x60\x60\x60\n".toList (parse t) = true := by
  have hparse : parse "~~~~ rs\n\x60\x60\x60\n~~~~".toList =
      .branch .document [.leaf (.codeBlock true 4 "rs".toList) "\x60\x60\x60\n".toList] := by
    decide +kernel
  have hfenceable : Fenceable (Layout.fenceWidth true 4) "rs".toList "\x60\x60\x60\n".toList := by
    decide +kernel
  obtain ⟨t, hformat, hread⟩ := format_keeps_code_iff hparse ⟨80⟩
  exact ⟨hparse, t, hformat, hread.mpr hfenceable⟩

/-- A line of three backticks between tildes closes the fence that is written around it. -/
theorem format_breaks_code :
    parse "~~~\n\x60\x60\x60\n~~~\n".toList =
        .branch .document [.leaf (.codeBlock true 3 []) "\x60\x60\x60\n".toList] ∧
      ∃ t, format ⟨80⟩ "~~~\n\x60\x60\x60\n~~~\n".toList = .ok t ∧
        holdsCode [] "\x60\x60\x60\n".toList (parse t) = false := by
  refine ⟨by decide +kernel, "\x60\x60\x60\n\x60\x60\x60\n\x60\x60\x60\n".toList, ?_, ?_⟩
  · decide +kernel
  · decide +kernel

end CanonMark
