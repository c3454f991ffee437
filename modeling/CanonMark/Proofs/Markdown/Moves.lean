import CanonMark.Markdown.Block
import Mathlib.Logic.Relation

/-! # Moves of the reader

The reader changes the blocks of its state in three ways only: it adds a leaf, completes the
innermost container, or opens one. All else that it does concerns the containers' marks and what it
remembers of blank lines and definitions. What these moves keep, reading a source keeps.
-/
namespace CanonMark.Markdown

inductive Block.IsLeaf : Block → Prop where
  | paragraph (content) : IsLeaf (.paragraph content)
  | heading {level : Nat} (content) : 1 ≤ level ∧ level ≤ 6 → IsLeaf (.heading level content)
  | fenced (length info code) : IsLeaf (.fenced length info code)
  | indented (code) : IsLeaf (.indented code)
  | html (margin literal) : IsLeaf (.html margin literal)
  | table (alignments header rows) : IsLeaf (.table alignments header rows)
  | rule : IsLeaf .rule

inductive Move : State → State → Prop where
  | leaf (s : State) {b : Block} : b.IsLeaf → Move s (s.add b)
  | close (s : State) : Move s s.close
  | push (s : State) (c : Container) : Move s (s.push c)
  /-- The blocks stay, in the open containers and outside of them. -/
  | keep {s t : State} : t.frames.map Frame.blocks = s.frames.map Frame.blocks →
      t.blocks = s.blocks → Move s t

abbrev Moves : State → State → Prop := Relation.ReflTransGen Move

theorem headingLevel?_bounds {t : Text} {level : Nat} (h : headingLevel? t = some level) :
    1 ≤ level ∧ level ≤ 6 := by
  unfold headingLevel? at h
  dsimp only at h
  split at h
  · next hlevel =>
    obtain rfl := Option.some.inj h
    simp only [Bool.and_eq_true, decide_eq_true_eq] at hlevel
    exact hlevel.1
  · cases h

theorem underlineLevel?_bounds {t : Text} {level : Nat} (h : underlineLevel? t = some level) :
    1 ≤ level ∧ level ≤ 6 := by
  unfold underlineLevel? at h
  split at h
  · cases h
  · split at h
    · obtain rfl := Option.some.inj h
      split <;> omega
    · cases h

theorem continuation_bounds {spine : List Container} {ls : List Line} {level : Nat} {margin : Text}
    (h : (continuation spine ls).underline = some (level, margin)) : 1 ≤ level ∧ level ≤ 6 := by
  induction ls with
  | nil => cases h
  | cons line following ih =>
    rw [continuation] at h
    split at h
    split at h
    dsimp only at h
    split at h
    · next found hfound =>
      obtain ⟨rfl, -⟩ : found = level ∧ _ := by simpa using h
      split at hfound
      · exact underlineLevel?_bounds hfound
      · cases hfound
    · split at h
      · cases h
      · exact ih h

namespace State

theorem moves_closeMany (s : State) (n : Nat) : Moves s (s.closeMany n) := by
  induction n generalizing s with
  | zero => exact .refl
  | succ n ih => exact .head (.close s) (ih s.close)

theorem move_loosen (s : State) : Move s s.loosen := by
  unfold loosen
  split
  · next f mark loose blocks fs hframes => exact .keep (by simp [hframes]) rfl
  · exact .keep rfl rfl

theorem moves_finishList (s : State) : Moves s s.finishList := by
  have hidle : Moves s { s with itemEmpty := false } := .single (.keep rfl rfl)
  have hloose : ∀ t, Moves s t → Moves s { t.loosen with blankBefore := false } :=
    fun t ht => (ht.tail t.move_loosen).tail (.keep rfl rfl)
  unfold finishList
  dsimp only
  split
  · split
    · exact hloose _ (hidle.tail (.close _))
    · exact hloose _ hidle
  · split
    · exact hidle.tail (.close _)
    · exact hidle

theorem moves_leaf (s : State) {b : Block} (hb : b.IsLeaf) : Moves s (s.finishList.add b) :=
  s.moves_finishList.tail (.leaf _ hb)

theorem moves_continueList (s : State) (mark : ListMark) : Moves s (s.continueList mark) := by
  have hopened : ∀ t, Moves s t →
      Moves s { t.push (.list mark false) with blankBefore := false } :=
    fun t ht => (ht.tail (.push t _)).tail (.keep rfl rfl)
  unfold continueList
  dsimp only
  split
  · exact hopened { s with itemEmpty := false } (.single (.keep rfl rfl))
  · next m loose blocks fs hframes =>
    split
    · exact .single (.keep (by simp [hframes]) rfl)
    · exact hopened _ s.moves_finishList
  · exact hopened _ s.moves_finishList

theorem moves_blankLine (s : State) : Moves s s.blankLine := by
  have hseen : ∀ t, Moves s t → Moves s { t with blankBefore := true } :=
    fun t ht => ht.tail (.keep rfl rfl)
  unfold blankLine
  split
  · exact .refl
  · exact .refl
  · split
    · exact hseen _ (.single (.close s))
    · exact hseen s .refl
  · exact hseen s .refl

end State

open State

theorem moves_openContainers (fuel : Nat) (s : State) (cur : Cursor) :
    Moves s (openContainers fuel s cur).1 := by
  induction fuel generalizing s cur with
  | zero => exact .refl
  | succ fuel ih =>
    rw [openContainers]
    split
    split
    · exact .refl
    · split
      · next mark indent behind _ =>
        have hitem := (s.moves_continueList mark).tail (.push _ (.item indent))
        dsimp only
        split
        · exact hitem.tail (.keep rfl rfl)
        · exact hitem.trans (ih _ behind)
      · split
        · next behind _ => exact (s.moves_finishList.tail (.push _ .quote)).trans (ih _ behind)
        · exact .refl

theorem moves_readParagraph (s : State) (t ending : Text) (following : List Line) :
    Moves s (readParagraph s t ending following).1 := by
  unfold readParagraph
  dsimp only
  split
  · exact s.moves_leaf (.table _ _ _)
  · split
    · next level margin hlevel => exact s.moves_leaf (.heading _ (continuation_bounds hlevel))
    · exact s.moves_leaf (.paragraph _)

theorem moves_readDefinitions (fuel : Nat) (s : State) (t ending : Text) (following : List Line) :
    Moves s (readDefinitions fuel s t ending following).1 := by
  induction fuel generalizing s t ending following with
  | zero => exact moves_readParagraph s t ending following
  | succ fuel ih =>
    rw [readDefinitions]
    split
    · exact moves_readParagraph s t ending following
    · next d passed _ =>
      have hknown : Moves s { s with definitions := s.definitions ++ [d] } := .single (.keep rfl rfl)
      dsimp only
      split
      · exact hknown.trans (moves_finishList _)
      · split
        · exact hknown.trans (moves_finishList _)
        · exact hknown.trans (ih _ _ _ _)

theorem moves_readLeaf (s : State) (cur : Cursor) (ending : Text) (following : List Line) :
    Moves s (readLeaf s cur ending following).1 := by
  unfold readLeaf
  dsimp only
  split
  · exact (s.moves_leaf (.indented _)).tail (.keep rfl rfl)
  split
  · exact s.moves_leaf (.html _ _)
  split
  · exact s.moves_leaf (.html _ _)
  split
  · exact s.moves_leaf .rule
  split
  · next level hlevel => exact s.moves_leaf (.heading _ (headingLevel?_bounds hlevel))
  split
  · exact s.moves_leaf (.fenced _ _ _)
  · exact moves_readDefinitions _ s _ ending following

theorem moves_readBlock (s : State) (line : Line) (following : List Line) :
    Moves s (readBlock s line following).1 := by
  unfold readBlock
  split
  next left cur _ =>
  have hopen := (s.moves_closeMany left.length).trans
    (moves_openContainers (cur.rest.length + 1) (s.closeMany left.length) cur)
  dsimp only
  split
  · next S heq =>
    rw [heq] at hopen
    exact hopen
  · next S cur heq =>
    rw [heq] at hopen
    split
    · exact hopen.trans S.moves_blankLine
    · exact hopen.trans (moves_readLeaf S cur line.ending following)

theorem moves_readBlocks (fuel : Nat) (s : State) (ls : List Line) :
    Moves s (readBlocks fuel s ls) := by
  induction fuel generalizing s ls with
  | zero => cases ls <;> exact .refl
  | succ fuel ih =>
    cases ls with
    | nil => exact .refl
    | cons line following => exact (moves_readBlock s line following).trans (ih _ _)

end CanonMark.Markdown
