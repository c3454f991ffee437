import CanonMark.Proofs.Markdown.Leaves

/-! # What documents are made of

Whether a document is read back as it was laid out is decided by its parts, each of them by itself:
its runs with the margins they are filled behind, its headings, code, tables and lists.
-/
namespace CanonMark.Markdown

open Layout (headingLine codeLines wholeLines)

inductive Part where
  | run (margin : Layout.Margin) (next : Option Text) (cs : List Node)
  | heading (level : Nat) (text : Text)
  | code (width : Nat) (info text : Text)
  | table (header : List Text) (rows : List (List Text))
  | list (items : Nat)

/-- A part that is read back. The markers of lists count up to nine digits. -/
def Part.Sound (cols : Nat) : Part → Prop
  | .run margin next cs => SoundRun cols margin next cs
  | .heading level text => (1 ≤ level ∧ level ≤ 6) ∧ OneLine (headingLine level text)
  | .code width info text =>
    (3 ≤ width ∧ '\x60' ∉ info ∧ OneLine info) ∧ wholeLines text ∧
      ∀ l ∈ codeLines text, OneLine l ∧ endsFence width l = false
  | .table header rows =>
    (∀ c ∈ header, pipeFree c) ∧ ∀ row ∈ header :: rows, ∀ c ∈ row, OneLine c
  | .list items => 0 < items ∧ items < 1000000000

instance (cols : Nat) : (p : Part) → Decidable (p.Sound cols)
  | .run margin next cs => inferInstanceAs (Decidable (SoundRun cols margin next cs))
  | .heading level text =>
    inferInstanceAs (Decidable ((1 ≤ level ∧ level ≤ 6) ∧ OneLine (headingLine level text)))
  | .code width info text =>
    inferInstanceAs (Decidable ((3 ≤ width ∧ '\x60' ∉ info ∧ OneLine info) ∧ wholeLines text ∧
      ∀ l ∈ codeLines text, OneLine l ∧ endsFence width l = false))
  | .table header rows =>
    inferInstanceAs (Decidable ((∀ c ∈ header, pipeFree c) ∧
      ∀ row ∈ header :: rows, ∀ c ∈ row, OneLine c))
  | .list items => inferInstanceAs (Decidable (0 < items ∧ items < 1000000000))

theorem sound_single {cols : Nat} {p : Part} : (∀ q ∈ [p], q.Sound cols) ↔ p.Sound cols := by
  simp

end CanonMark.Markdown
