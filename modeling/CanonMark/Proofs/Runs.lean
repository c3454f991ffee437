import Mathlib.Data.List.SplitBy

/-! # Runs in lists

A run is a stretch of elements that a test holds of. It is maximal if it cannot be made longer: the
elements on both sides of it fail the test.
-/
namespace CanonMark

/-- Puts one element in the place of each maximal run of elements that `p` holds of. -/
def replaceRuns (p : α → Bool) (f : List α → α) (l : List α) : List α :=
  (l.splitBy fun a b => p a && p b).flatMap fun run => if run.all p then [f run] else run

inductive Stretch (α : Type) where
  | single (a : α)
  | run (as : List α)
  deriving DecidableEq, Repr

namespace Stretch

def elements : Stretch α → List α
  | .single a => [a]
  | .run as => as

def isRun : Stretch α → Bool
  | .single _ => false
  | .run _ => true

def replaced (f : List α → α) : Stretch α → α
  | .single a => a
  | .run as => f as

end Stretch

/-- The parts of a list, of which the runs are the maximal ones. -/
structure MaximalRuns (p : α → Bool) (l : List α) (parts : List (Stretch α)) : Prop where
  whole : parts.flatMap Stretch.elements = l
  nonempty : ∀ as, .run as ∈ parts → as ≠ []
  holds : ∀ as, .run as ∈ parts → ∀ a ∈ as, p a = true
  fails : ∀ a, .single a ∈ parts → p a = false
  apart : parts.IsChain fun s t => ¬(s.isRun = true ∧ t.isRun = true)

section
variable {p : α → Bool} {f : List α → α}

@[simp] theorem replaceRuns_nil : replaceRuns p f [] = [] := rfl

/-- Runs do not reach across a place where one of the neighbours is of another kind. -/
theorem replaceRuns_append {l m : List α}
    (h : ∀ a ∈ l.getLast?, ∀ b ∈ m.head?, (p a && p b) = false) :
    replaceRuns p f (l ++ m) = replaceRuns p f l ++ replaceRuns p f m := by
  rw [replaceRuns, List.splitBy_append h, List.flatMap_append]
  rfl

theorem replaceRuns_run {l : List α} (hne : l ≠ []) (h : ∀ a ∈ l, p a = true) :
    replaceRuns p f l = [f l] := by
  have hchain : l.IsChain fun a b => (p a && p b) = true := by
    refine (List.pairwise_of_forall_mem_list ?_).isChain
    intro a ha b hb
    rw [h a ha, h b hb, Bool.and_self]
  have hall : l.all p = true := List.all_eq_true.mpr h
  rw [replaceRuns, List.splitBy_of_isChain hne hchain, List.flatMap_singleton, if_pos hall]

theorem replaceRuns_single {a : α} (h : p a = false) : replaceRuns p f [a] = [a] := by
  simp [replaceRuns, List.splitBy, List.splitBy.loop, h]

theorem replaceRuns_cons {a : α} (h : p a = false) (l : List α) :
    replaceRuns p f (a :: l) = a :: replaceRuns p f l := by
  have hsplit := replaceRuns_append (p := p) (f := f) (l := [a]) (m := l) (by simp [h])
  rwa [replaceRuns_single h] at hsplit

theorem replaceRuns_concat {a : α} (h : p a = false) (l : List α) :
    replaceRuns p f (l ++ [a]) = replaceRuns p f l ++ [a] := by
  rw [replaceRuns_append (by simp [h]), replaceRuns_single h]

theorem mem_replaceRuns {l : List α} {a : α} (h : a ∈ replaceRuns p f l) :
    a ∈ l ∨ ∃ run, (∀ b ∈ run, b ∈ l) ∧ a = f run := by
  obtain ⟨run, hrun, ha⟩ := List.mem_flatMap.mp h
  have hmem : ∀ b ∈ run, b ∈ l := by
    intro b hb
    rw [← List.flatten_splitBy (fun a b => p a && p b) l]
    exact List.mem_flatten_of_mem hrun hb
  split at ha
  · exact .inr ⟨run, hmem, List.mem_singleton.mp ha⟩
  · exact .inl (hmem a ha)

theorem replaceRuns_of_none {l : List α} (h : ∀ a ∈ l, p a = false) : replaceRuns p f l = l := by
  induction l with
  | nil => rfl
  | cons a l ih =>
    rw [replaceRuns_cons (h a List.mem_cons_self), ih fun b hb => h b (List.mem_cons_of_mem _ hb)]

theorem exists_front_run (p : α → Bool) (l : List α) : ∃ front rest, l = front ++ rest ∧
    (∀ a ∈ front, p a = true) ∧ ∀ a ∈ rest.head?, p a = false := by
  refine ⟨l.takeWhile p, l.dropWhile p, List.takeWhile_append_dropWhile.symm, ?_, ?_⟩
  · intro a ha
    exact List.all_eq_true.mp List.all_takeWhile a ha
  · intro a ha
    have hfirst := List.head?_dropWhile_not p l
    rw [Option.mem_def.mp ha] at hfirst
    exact hfirst

theorem replaceRuns_front {front rest : List α} (hne : front ≠ []) (h : ∀ a ∈ front, p a = true)
    (hrest : ∀ a ∈ rest.head?, p a = false) :
    replaceRuns p f (front ++ rest) = f front :: replaceRuns p f rest := by
  have hcut : ∀ a ∈ front.getLast?, ∀ b ∈ rest.head?, (p a && p b) = false := by
    intro a _ b hb
    rw [hrest b hb, Bool.and_false]
  rw [replaceRuns_append hcut, replaceRuns_run hne h, List.singleton_append]

theorem replaceRuns_const_cons {a b : α} (ha : p a = true) (l : List α) :
    replaceRuns p (fun _ => b) (a :: l) =
      if l.head?.any p then replaceRuns p (fun _ => b) l
      else b :: replaceRuns p (fun _ => b) l := by
  obtain ⟨front, rest, rfl, hfront, hrest⟩ := exists_front_run p l
  have hmore : ∀ c ∈ a :: front, p c = true := List.forall_mem_cons.mpr ⟨ha, hfront⟩
  have hlonger : replaceRuns p (fun _ => b) (a :: (front ++ rest)) =
      b :: replaceRuns p (fun _ => b) rest :=
    replaceRuns_front (List.cons_ne_nil a front) hmore hrest
  rw [hlonger]
  cases front with
  | nil =>
    have hfails : rest.head?.any p = false := by
      cases hhead : rest.head? with
      | none => rfl
      | some c => exact hrest c hhead
    simp [hfails]
  | cons c front =>
    have hholds : p c = true := hfront c List.mem_cons_self
    have hfirst : ((c :: front) ++ rest).head?.any p = true := hholds
    rw [if_pos hfirst, replaceRuns_front (List.cons_ne_nil c front) hfront hrest]

theorem MaximalRuns.single {l : List α} {parts : List (Stretch α)} (h : MaximalRuns p l parts)
    {a : α} (ha : p a = false) : MaximalRuns p (a :: l) (.single a :: parts) := by
  constructor
  · rw [List.flatMap_cons, h.whole]
    rfl
  · intro as has
    exact h.nonempty as (by simpa using has)
  · intro as has
    exact h.holds as (by simpa using has)
  · intro b hb
    rcases List.mem_cons.mp hb with hb | hb
    · rw [Stretch.single.inj hb, ha]
    · exact h.fails b hb
  · refine List.isChain_cons.mpr ⟨?_, h.apart⟩
    rintro t - ⟨hsingle, -⟩
    cases hsingle

theorem MaximalRuns.run {l : List α} {parts : List (Stretch α)} (h : MaximalRuns p l parts)
    {front : List α} (hne : front ≠ []) (hfront : ∀ a ∈ front, p a = true)
    (hparts : ∀ t ∈ parts.head?, t.isRun = false) :
    MaximalRuns p (front ++ l) (.run front :: parts) := by
  constructor
  · rw [List.flatMap_cons, h.whole]
    rfl
  · intro as has
    rcases List.mem_cons.mp has with has | has
    · rwa [Stretch.run.inj has]
    · exact h.nonempty as has
  · intro as has
    rcases List.mem_cons.mp has with has | has
    · rwa [Stretch.run.inj has]
    · exact h.holds as has
  · intro b hb
    exact h.fails b (by simpa using hb)
  · refine List.isChain_cons.mpr ⟨?_, h.apart⟩
    rintro t ht ⟨-, hrun⟩
    rw [hparts t ht] at hrun
    cases hrun

theorem MaximalRuns.tail {l : List α} {t : Stretch α} {parts : List (Stretch α)}
    (h : MaximalRuns p l (t :: parts)) : MaximalRuns p (parts.flatMap Stretch.elements) parts := by
  constructor
  · rfl
  · intro as has
    exact h.nonempty as (List.mem_cons_of_mem _ has)
  · intro as has
    exact h.holds as (List.mem_cons_of_mem _ has)
  · intro a ha
    exact h.fails a (List.mem_cons_of_mem _ ha)
  · exact h.apart.tail

theorem MaximalRuns.head_fails {l : List α} {parts : List (Stretch α)} (h : MaximalRuns p l parts)
    (hparts : ∀ t ∈ parts.head?, t.isRun = false) : ∀ a ∈ l.head?, p a = false := by
  rw [← h.whole]
  intro a ha
  match parts, h with
  | [], _ => cases ha
  | .single b :: parts, h =>
    rw [← Option.some.inj ha]
    exact h.fails b List.mem_cons_self
  | .run as :: parts, _ =>
    have hrun : (Stretch.run as).isRun = false := hparts _ rfl
    cases hrun

/-- The maximal runs are what is replaced. -/
theorem MaximalRuns.replaceRuns_eq {l : List α} {parts : List (Stretch α)}
    (h : MaximalRuns p l parts) : replaceRuns p f l = parts.map (Stretch.replaced f) := by
  induction parts generalizing l with
  | nil =>
    rw [← h.whole]
    rfl
  | cons t parts ih =>
    have hrest := ih h.tail
    rw [← h.whole, List.flatMap_cons, List.map_cons, ← hrest]
    cases t with
    | single a => exact replaceRuns_cons (h.fails a List.mem_cons_self) _
    | run as =>
      refine replaceRuns_front (h.nonempty as List.mem_cons_self)
        (h.holds as List.mem_cons_self) (h.tail.head_fails ?_)
      intro t ht
      have happart := (List.isChain_cons.mp h.apart).1 t ht
      by_contra hrun
      exact happart ⟨rfl, by simpa using hrun⟩

theorem exists_maximalRuns (p : α → Bool) (l : List α) : ∃ parts, MaximalRuns p l parts := by
  obtain ⟨front, rest, rfl, hfront, hrest⟩ := exists_front_run p l
  -- What follows a run begins with an element that lies in none.
  obtain ⟨parts, hparts, hhead⟩ :
      ∃ parts, MaximalRuns p rest parts ∧ ∀ t ∈ parts.head?, t.isRun = false := by
    cases rest with
    | nil => exact ⟨[], ⟨rfl, by simp, by simp, by simp, .nil⟩, by simp⟩
    | cons a rest =>
      obtain ⟨parts, hparts⟩ := exists_maximalRuns p rest
      exact ⟨_, hparts.single (hrest a rfl), by simp [Stretch.isRun]⟩
  by_cases hne : front = []
  · exact ⟨parts, by simpa [hne] using hparts⟩
  · exact ⟨_, hparts.run hne hfront hhead⟩
termination_by l.length

end
end CanonMark
