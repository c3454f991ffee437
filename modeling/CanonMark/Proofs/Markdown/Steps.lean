import CanonMark.Proofs.Markdown.Nodes
import Mathlib.Data.List.Induction

/-! # Steps of the inline reader

The reader is started with fuel. Steps say without fuel that reading leads from one place of the
content to another. Content yields pieces if reading it adds them, whatever has been read before;
they are resolved by themselves if no delimiter is left over.
-/
namespace CanonMark.Markdown

/-- Reading content behind a character reaches another reading, with some of the content left. -/
inductive Steps : Reading → Char → Content → Reading → Char → Content → Prop where
  | refl (r prev t) : Steps r prev t r prev t
  | step {r prev s t r' prev' t' r'' prev'' t''} : readOne [] r prev s t = (r', prev', t') →
      t'.length ≤ t.length → Steps r' prev' t' r'' prev'' t'' → Steps r prev (s :: t) r'' prev'' t''

theorem Steps.trans {r r' r'' : Reading} {prev prev' prev'' : Char} {t t' t'' : Content}
    (h : Steps r prev t r' prev' t') (k : Steps r' prev' t' r'' prev'' t'') :
    Steps r prev t r'' prev'' t'' := by
  induction h with
  | refl => exact k
  | step hone hle _ ih => exact .step hone hle (ih k)

theorem Steps.single {r r' : Reading} {prev prev' : Char} {s : Symbol} {t t' : Content}
    (h : readOne [] r prev s t = (r', prev', t')) (hle : t'.length ≤ t.length) :
    Steps r prev (s :: t) r' prev' t' :=
  .step h hle (.refl _ _ _)

theorem Steps.readInline {r r' : Reading} {prev prev' : Char} {t t' : Content}
    (h : Steps r prev t r' prev' t') (ht : t' = []) {fuel : Nat} (hf : t.length ≤ fuel) :
    readInline [] fuel r prev t = r' := by
  induction h generalizing fuel with
  | refl r prev t =>
    subst ht
    cases fuel <;> rfl
  | step hone hle _ ih =>
    cases fuel with
    | zero => simp at hf
    | succ fuel =>
      rw [Markdown.readInline, hone]
      refine ih ht ?_
      simp only [List.length_cons] at hf
      omega

/-- A piece of which nothing depends on what follows: neither an open bracket nor a break that a
closing bracket could take back. -/
def Piece.complete : Piece → Bool
  | .bracket _ _ _ => false
  | .span (.hardBreak _) => false
  | _ => true

theorem disarm_complete {p : Piece} (h : p.complete = true) : disarm p = p := by
  cases p with
  | span s => rfl
  | run r => rfl
  | bracket image live behind => cases h

/-- Reading content with `rest` behind it adds pieces and leads to `rest`. Content that holds a link
may only follow pieces that a link does not disarm. -/
structure Yields (linked : Bool) (prev : Char) (t rest : Content) (ps : List Piece) (last : Char) :
    Prop where
  complete : ∀ p ∈ ps, p.complete = true
  steps : ∀ r : Reading, (linked = true → ∀ p ∈ r.pieces, disarm p = p) →
    Steps r prev (t ++ rest) { r with pieces := ps.reverse ++ r.pieces } last rest

theorem yields_nil (linked : Bool) (prev : Char) (rest : Content) :
    Yields linked prev [] rest [] prev :=
  ⟨by simp, fun r _ => .refl r prev rest⟩

theorem Yields.append {linked : Bool} {prev mid last : Char} {s t rest : Content}
    {ps qs : List Piece} (h : Yields linked prev s (t ++ rest) ps mid)
    (h' : Yields linked mid t rest qs last) : Yields linked prev (s ++ t) rest (ps ++ qs) last := by
  constructor
  · intro p hp
    rcases List.mem_append.mp hp with hp | hp
    · exact h.complete p hp
    · exact h'.complete p hp
  · intro r hr
    have hbehind : linked = true → ∀ p ∈ ps.reverse ++ r.pieces, disarm p = p := by
      intro hlinked p hp
      rcases List.mem_append.mp hp with hp | hp
      · exact disarm_complete (h.complete p (List.mem_reverse.mp hp))
      · exact hr hlinked p hp
    have hfirst := h.steps r hr
    have hsecond := h'.steps { r with pieces := ps.reverse ++ r.pieces } hbehind
    rw [List.append_assoc]
    simpa using hfirst.trans hsecond

theorem Yields.weaken {prev last : Char} {t rest : Content} {ps : List Piece}
    (h : Yields false prev t rest ps last) (linked : Bool) : Yields linked prev t rest ps last :=
  ⟨h.complete, fun r _ => h.steps r nofun⟩

theorem yields_single {prev last : Char} {s : Symbol} {t rest : Content} {p : Piece}
    (hp : p.complete = true)
    (h : ∀ r : Reading, readOne [] r prev s (t ++ rest) = (r.push p, last, rest)) :
    Yields false prev (s :: t) rest [p] last := by
  constructor
  · intro q hq
    rwa [List.mem_singleton.mp hq]
  · intro r _
    exact .single (h r) (by simp)

/-- Pieces that are resolved to spans wherever no delimiter is left open before them. -/
def Settles (ps : List Piece) (ss : List Span) : Prop :=
  ∀ before, (∀ p ∈ before, p.isRun = false) →
    ps.foldl resolveStep before = (ss.map .span).reverse ++ before

theorem foldl_spans (ss : List Span) (before : List Piece) :
    (ss.map Piece.span).foldl resolveStep before = (ss.map .span).reverse ++ before := by
  induction ss generalizing before with
  | nil => rfl
  | cons s ss ih =>
    have hstep : resolveStep before (.span s) = .span s :: before := rfl
    rw [List.map_cons, List.foldl_cons, hstep, ih]
    simp

theorem settles_spans (ss : List Span) : Settles (ss.map .span) ss :=
  fun before _ => foldl_spans ss before

theorem Settles.append {ps qs : List Piece} {ss rs : List Span} (h : Settles ps ss)
    (h' : Settles qs rs) : Settles (ps ++ qs) (ss ++ rs) := by
  intro before hbefore
  have hbehind : ∀ p ∈ (ss.map Piece.span).reverse ++ before, p.isRun = false := by
    intro p hp
    rcases List.mem_append.mp hp with hp | hp
    · obtain ⟨s, -, rfl⟩ := List.mem_map.mp (List.mem_reverse.mp hp)
      rfl
    · exact hbefore p hp
  rw [List.foldl_append, h before hbefore, h' _ hbehind]
  simp

theorem Settles.resolve_eq {ps : List Piece} {ss : List Span} (h : Settles ps ss) :
    resolve ps = ss := by
  have hspans : (ss.map Piece.span).flatMap Piece.spans = ss := by
    rw [List.flatMap_map]
    exact List.map_eq_flatMap.symm.trans (List.map_id ss)
  rw [resolve, h [] (by simp), List.append_nil, List.reverse_reverse, hspans]

theorem opener?_none (closer : Run) {before : List Piece} (h : ∀ p ∈ before, p.isRun = false) :
    opener? closer before = none := by
  induction before with
  | nil => rfl
  | cons p before ih =>
    have hrest := ih fun q hq => h q (by simp [hq])
    cases p with
    | run r => exact absurd (h (.run r) (by simp)) (by simp [Piece.isRun])
    | span s => simp [opener?, hrest]
    | bracket image live behind => simp [opener?, hrest]

theorem opener?_spans {opener closer : Run} (h : opener.pairs closer = true) (ss : List Span)
    (before : List Piece) : opener? closer ((ss.map Piece.span).reverse ++ .run opener :: before) =
      some (ss, opener, before) := by
  induction ss using List.reverseRec with
  | nil => simp [opener?, h]
  | append_singleton ss s ih =>
    rw [List.map_append, List.reverse_append]
    change opener? closer (.span s :: ((ss.map Piece.span).reverse ++ .run opener :: before)) = _
    simp [opener?, ih, Piece.spans]

def stars (n : Nat) (opens closes : Bool) : Run := ⟨'*', n, n, opens, closes, []⟩

theorem resolveStep_opener {n : Nat} (hn : n ≠ 0) (closes : Bool) {before : List Piece}
    (h : ∀ p ∈ before, p.isRun = false) :
    resolveStep before (.run (stars n true closes)) = .run (stars n true closes) :: before := by
  have hclosed : ∀ fuel, closeRun fuel (stars n true closes) before =
      (stars n true closes, before) := by
    intro fuel
    cases fuel with
    | zero => rfl
    | succ fuel =>
      rw [closeRun, opener?_none _ h]
      split
      · rfl
      · rfl
  have hkept : (if (stars n true closes).closes then
      closeRun (stars n true closes).count (stars n true closes) before
      else (stars n true closes, before)) = (stars n true closes, before) := by
    rw [hclosed]
    exact ite_self _
  simp only [resolveStep, hkept]
  exact if_neg hn

/-- Delimiters around spans make one span of them. -/
theorem settles_delimited {n : Nat} (hn : n = 1 ∨ n = 2) (opens closes : Bool) (ss : List Span) :
    Settles (.run (stars n true closes) :: (ss.map .span ++ [.run (stars n opens true)]))
      (enclose n ss) := by
  intro before hbefore
  have hpairs : (stars n true closes).pairs (stars n opens true) = true := by
    rcases hn with rfl | rfl <;> cases opens <;> cases closes <;> rfl
  have hopen := resolveStep_opener (n := n) (by omega) closes hbefore
  have hopener := opener?_spans hpairs ss before
  rw [List.foldl_cons, hopen, List.foldl_append, foldl_spans, List.foldl_cons, List.foldl_nil]
  have hclosed : closeRun n (stars n opens true)
      ((ss.map Piece.span).reverse ++ .run (stars n true closes) :: before) =
        ({ stars n opens true with count := 0 },
          ((enclose n ss).map Piece.span).reverse ++ before) := by
    rcases hn with rfl | rfl
    · rw [closeRun, if_neg (by simp [stars]), hopener]
      simp [stars, closeRun, enclose]
    · rw [closeRun, if_neg (by simp [stars]), hopener]
      simp [stars, closeRun, enclose]
  have hcount : (stars n opens true).count = n := rfl
  have hcloses : (stars n opens true).closes = true := rfl
  simp only [resolveStep, hcloses, hcount, if_true, hclosed]

theorem Yields.plainSpans_eq {t : Content} {ps : List Piece} {last : Char} {ss : List Span}
    (h : Yields true '\n' t [] ps last) (hs : Settles ps ss) : plainSpans t = ss := by
  have hsteps := h.steps ⟨[], [], 0⟩ (by simp)
  rw [List.append_nil] at hsteps
  have hread := hsteps.readInline rfl (Nat.le_refl _)
  have hresolve := hs.resolve_eq
  simp only [plainSpans, spans, hread]
  simpa using hresolve

end CanonMark.Markdown
