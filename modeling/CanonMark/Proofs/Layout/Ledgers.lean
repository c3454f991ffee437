import CanonMark.Proofs.Layout.Openings

/-! # What a flow keeps account of

A flow counts the columns of its current line. The counter is raised when a token is written and set
back when a line ends, in several places. Here a ledger keeps beside the flow what it has written
and the tokens it was given, and the counter is shown to agree with them behind every call. Flows
are nested in each other; while a nested flow writes, those around it stay as they are.
-/
namespace CanonMark.Layout

/-- A flow, the margin it was made with, and what was done with it. -/
structure Ledger where
  margin : Margin
  flow : Flow
  /-- The text that the flow has written by itself. -/
  own : Text
  tokens : List Text
  deriving DecidableEq, Repr

/-- Nothing, or lines that are ended. -/
def Ended (t : Text) : Prop := t = [] ∨ t.getLast? = some '\n'

instance (t : Text) : Decidable (Ended t) := inferInstanceAs (Decidable (_ ∨ _))

namespace Ledger

def start (cols : Nat) (margin : Margin) : Ledger := ⟨margin, Flow.start cols margin, [], []⟩

def nested (l : Ledger) (margin : Margin) : Ledger :=
  let w := l.flow.nested margin
  ⟨w.margin, w, [], []⟩

def enter (l : Ledger) (result : Text × Flow) (tokens : List Text) : Ledger :=
  { l with flow := result.2, own := l.own ++ result.1, tokens := l.tokens ++ tokens }

def call (l : Ledger) (c : Call) : Ledger := l.enter (l.flow.call c) c.tokens

/-- What stands on the current line: the text before it is ended, and the counter is the width of
the margin that opened the line, of the first token as it is escaped, and of the others with a space
each. -/
structure OnLine (l : Ledger) (before : Text) (earlier : List Text) (t : Text) (ts : List Text) :
    Prop where
  ended : Ended before
  own_eq : l.own =
    before ++ ((if earlier = [] then l.margin.first else l.margin.later) ++ lineBody (t :: ts))
  flat : '\n' ∉ lineBody (t :: ts)
  tokens_eq : l.tokens = earlier ++ t :: ts
  count_eq : l.flow.count =
    openWidth (if earlier = [] then l.margin.first else l.margin.later) t + tailWidth ts

/-- The account agrees with the flow, which may still be too long for its line. -/
structure Sound (cols : Nat) (l : Ledger) : Prop where
  cols_eq : l.flow.cols = cols
  margin_eq : l.flow.margin = l.margin
  first_iff : l.flow.firstLine = true ↔ l.tokens = []
  first_start : l.flow.firstLine = true → l.flow.atLineStart = true
  count_start : l.flow.atLineStart = true → l.flow.count = 0
  own_start : l.flow.atLineStart = true → Ended l.own
  line : l.flow.atLineStart = false → ∃ before earlier t ts, l.OnLine before earlier t ts

/-- The account agrees, and the line is not too long. -/
structure Balanced (cols : Nat) (l : Ledger) : Prop extends l.Sound cols where
  fits : l.flow.count ≤ cols

theorem start_balanced (cols : Nat) (margin : Margin) : (start cols margin).Balanced cols where
  cols_eq := rfl
  margin_eq := rfl
  first_iff := ⟨fun _ => rfl, fun _ => rfl⟩
  first_start := fun h => h
  count_start := fun _ => rfl
  own_start := fun _ => .inl rfl
  line := by
    rintro ⟨⟩
  fits := Nat.zero_le cols

theorem enter_enter (l : Ledger) (a b : Text × Flow) (ts us : List Text) :
    (l.enter a ts).enter b us = l.enter (a.1 ++ b.1, b.2) (ts ++ us) := by
  simp [enter]

variable {cols : Nat} {l : Ledger}

theorem Sound.breakLine (h : l.Sound cols) (x : Text) :
    (l.enter (x ++ l.flow.breakLine.1, l.flow.breakLine.2) []).Balanced cols where
  cols_eq := h.cols_eq
  margin_eq := h.margin_eq
  first_iff := by simpa [enter, Flow.breakLine] using h.first_iff
  first_start := fun _ => rfl
  count_start := fun _ => rfl
  own_start := by
    intro _
    right
    simp [enter, Flow.breakLine]
  line := by
    rintro ⟨⟩
  fits := Nat.zero_le cols

theorem Sound.settle (h : l.Sound cols) : (l.enter l.flow.settle []).Balanced cols := by
  unfold Flow.settle
  split
  · have hbroken := h.breakLine []
    rwa [List.nil_append] at hbroken
  · next hfits =>
    have hsame : l.enter ([], l.flow) [] = l := by simp [enter]
    rw [hsame]
    refine ⟨h, ?_⟩
    rw [← h.cols_eq]
    omega

theorem Sound.opened (h : l.Sound cols) (hstart : l.flow.atLineStart = true) {t : Text}
    (ht : '\n' ∉ t) : (l.enter (l.flow.opening ++ escapeLineStart t,
      { l.flow with
        count := l.flow.count + (Text.width l.flow.opening + Text.width (escapeLineStart t))
        firstLine := false
        atLineStart := false }) [t]).Sound cols where
  cols_eq := h.cols_eq
  margin_eq := h.margin_eq
  first_iff := by simp [enter]
  first_start := by
    rintro ⟨⟩
  count_start := by
    rintro ⟨⟩
  own_start := by
    rintro ⟨⟩
  line := by
    intro _
    have hopening : l.flow.opening =
        if l.tokens = [] then l.margin.first else l.margin.later := by
      rw [Flow.opening, h.margin_eq]
      simp only [h.first_iff]
    refine ⟨l.own, l.tokens, t, [], h.own_start hstart, ?_, ?_, rfl, ?_⟩
    · simp [enter, hopening, lineBody]
    · rw [lineBody, spacedTail_nil, List.append_nil, ← List.count_eq_zero,
        count_newline_escapeLineStart, List.count_eq_zero]
      exact ht
    · simp [enter, hopening, openWidth, h.count_start hstart]

theorem Sound.openWith (h : l.Sound cols) (hstart : l.flow.atLineStart = true) {t : Text}
    (ht : '\n' ∉ t) : (l.enter (l.flow.openWith t) [t]).Balanced cols := by
  have hsettled := (h.opened hstart ht).settle
  rw [enter_enter] at hsettled
  exact hsettled

theorem Sound.first_of_line (h : l.Sound cols) (hstart : l.flow.atLineStart = false) :
    l.flow.firstLine = false := by
  rw [← Bool.not_eq_true]
  intro hfirst
  rw [h.first_start hfirst] at hstart
  cases hstart

theorem Sound.appended (h : l.Sound cols) (hstart : l.flow.atLineStart = false) {t : Text}
    (ht : '\n' ∉ t) : (l.enter (' ' :: t,
      { l.flow with count := l.flow.count + (Text.width t + 1) }) [t]).Sound cols where
  cols_eq := h.cols_eq
  margin_eq := h.margin_eq
  first_iff := by simp [enter, h.first_of_line hstart]
  first_start := h.first_start
  count_start := fun hs => absurd hs (by simp [enter, hstart])
  own_start := fun hs => absurd hs (by simp [enter, hstart])
  line := by
    intro _
    obtain ⟨before, earlier, u, us, hline⟩ := h.line hstart
    have hbody : lineBody (u :: (us ++ [t])) = lineBody (u :: us) ++ ' ' :: t := by
      simp [lineBody, spacedTail]
    refine ⟨before, earlier, u, us ++ [t], hline.ended, ?_, ?_, ?_, ?_⟩
    · rw [hbody]
      simp [enter, hline.own_eq]
    · rw [hbody]
      simpa [hline.flat] using ht
    · simp [enter, hline.tokens_eq]
    · simp [enter, hline.count_eq, Nat.add_assoc]

theorem Sound.append (h : l.Sound cols) (hstart : l.flow.atLineStart = false) {t : Text}
    (ht : '\n' ∉ t) : (l.enter (l.flow.append t) [t]).Balanced cols := by
  have hsettled := (h.appended hstart ht).settle
  rw [enter_enter] at hsettled
  exact hsettled

theorem Sound.write (h : l.Sound cols) {t : Text} (ht : '\n' ∉ t) :
    (l.enter (l.flow.write t) [t]).Balanced cols := by
  by_cases hopen : (l.flow.firstLine || l.flow.atLineStart) = true
  · have hstart : l.flow.atLineStart = true := by
      rcases Bool.or_eq_true_iff.mp hopen with hfirst | hstart
      · exact h.first_start hfirst
      · exact hstart
    rw [Flow.write_opening t hopen]
    exact h.openWith hstart ht
  · have hstart : l.flow.atLineStart = false := by
      rw [Bool.or_eq_true_iff, not_or] at hopen
      exact Bool.eq_false_iff.mpr hopen.2
    unfold Flow.write
    rw [if_neg hopen]
    split
    · have hopened := (h.breakLine []).openWith rfl ht
      rw [enter_enter] at hopened
      exact hopened
    · exact h.append hstart ht

theorem Balanced.writeAll (h : l.Balanced cols) (ts : List Text)
    (hts : ∀ t ∈ ts.filter (!·.isEmpty), '\n' ∉ t) :
    (l.enter (l.flow.writeAll ts) (ts.filter (!·.isEmpty))).Balanced cols := by
  induction ts generalizing l with
  | nil => simpa [enter, Flow.writeAll] using h
  | cons t ts ih =>
    rw [Flow.writeAll]
    split
    · next hempty =>
      have hskip : (t :: ts).filter (!·.isEmpty) = ts.filter (!·.isEmpty) :=
        List.filter_cons_of_neg (by simp [hempty])
      rw [hskip] at hts ⊢
      exact ih h hts
    · next hne =>
      have hkeep : (t :: ts).filter (!·.isEmpty) = t :: ts.filter (!·.isEmpty) :=
        List.filter_cons_of_pos (by simpa using hne)
      rw [hkeep] at hts ⊢
      rw [List.forall_mem_cons] at hts
      have hrest := ih (h.toSound.write hts.1) hts.2
      rw [enter_enter] at hrest
      exact hrest

theorem Sound.newline (h : l.Sound cols) : (l.enter l.flow.newline []).Balanced cols :=
  h.breakLine _

theorem Balanced.terminate (h : l.Balanced cols) :
    (l.enter l.flow.terminate []).Balanced cols := by
  unfold Flow.terminate
  split
  · have hsame : l.enter ([], l.flow) [] = l := by simp [enter]
    rwa [hsame]
  · exact h.newline

theorem Balanced.call (h : l.Balanced cols) {c : Call} (hc : c.OneLine) :
    (l.call c).Balanced cols := by
  cases c with
  | write t => exact h.write (hc t List.mem_cons_self)
  | writeAll ts => exact h.writeAll ts hc
  | newline => exact h.newline
  | terminate => exact h.terminate

theorem Balanced.nested (h : l.Balanced cols) (margin : Margin) :
    (l.nested margin).Balanced cols := by
  have hfresh : l.nested margin = start cols (l.flow.nested margin).margin := by
    rw [Ledger.nested, Flow.nested, h.cols_eq]
    rfl
  rw [hfresh]
  exact start_balanced cols _

end Ledger

structure Session where
  current : Ledger
  around : List Ledger
  deriving DecidableEq, Repr

/-- A call on the current flow, or the begin or end of a flow nested in it. -/
inductive Move where
  | call (c : Call)
  | enter (margin : Margin)
  | leave
  deriving DecidableEq, Repr

namespace Move

def OneLine : Move → Prop
  | .call c => c.OneLine
  | _ => True

instance : (m : Move) → Decidable m.OneLine
  | .call c => inferInstanceAs (Decidable c.OneLine)
  | .enter _ => isTrue trivial
  | .leave => isTrue trivial

end Move

namespace Session

def start (cols : Nat) (margin : Margin) : Session := ⟨Ledger.start cols margin, []⟩

def step (s : Session) : Move → Session
  | .call c => { s with current := s.current.call c }
  | .enter margin => ⟨s.current.nested margin, s.current :: s.around⟩
  | .leave =>
    match s.around with
    | [] => s
    | l :: ls => ⟨l, ls⟩

def run (s : Session) (ms : List Move) : Session := ms.foldl step s

def ledgers (s : Session) : List Ledger := s.current :: s.around

/-- Moves that lead from one depth to another and never leave the flow at depth zero. -/
inductive Within : Nat → List Move → Nat → Prop where
  | done (d : Nat) : Within d [] d
  | call {d e : Nat} {ms : List Move} (c : Call) : Within d ms e → Within d (.call c :: ms) e
  | enter {d e : Nat} {ms : List Move} (margin : Margin) :
      Within (d + 1) ms e → Within d (.enter margin :: ms) e
  | leave {d e : Nat} {ms : List Move} : Within d ms e → Within (d + 1) (.leave :: ms) e

theorem step_balanced {cols : Nat} {s : Session} (h : ∀ l ∈ s.ledgers, l.Balanced cols) {m : Move}
    (hm : m.OneLine) : ∀ l ∈ (s.step m).ledgers, l.Balanced cols := by
  have hcurrent := h s.current List.mem_cons_self
  have haround := fun l hl => h l (List.mem_cons_of_mem s.current hl)
  cases m with
  | call c =>
    intro l hl
    rcases List.mem_cons.mp hl with rfl | hl
    · exact hcurrent.call hm
    · exact haround l hl
  | enter margin =>
    intro l hl
    rcases List.mem_cons.mp hl with rfl | hl
    · exact hcurrent.nested margin
    · exact h l hl
  | leave =>
    rw [step]
    split
    · exact h
    · next hls =>
      rw [hls] at haround
      exact haround

theorem run_balanced {cols : Nat} {s : Session} (h : ∀ l ∈ s.ledgers, l.Balanced cols)
    {ms : List Move} (hms : ∀ m ∈ ms, m.OneLine) :
    ∀ l ∈ (s.run ms).ledgers, l.Balanced cols := by
  induction ms generalizing s with
  | nil => exact h
  | cons m ms ih =>
    rw [List.forall_mem_cons] at hms
    exact ih (step_balanced h hms.1) hms.2

/-- Flows further outside stay as they are, whatever is done within. -/
theorem run_around {s : Session} {above outer : List Ledger} {d e : Nat} {ms : List Move}
    (h : Within d ms e) (hs : s.around = above ++ outer) (hd : above.length = d) :
    ∃ above', above'.length = e ∧ (s.run ms).around = above' ++ outer := by
  induction h generalizing s above with
  | done d => exact ⟨above, hd, hs⟩
  | call c _ ih => exact ih hs hd
  | enter margin _ ih =>
    have hentered : (s.step (.enter margin)).around = (s.current :: above) ++ outer := by
      rw [step, hs, List.cons_append]
    apply ih hentered
    rw [List.length_cons, hd]
  | leave _ ih =>
    cases above with
    | nil => cases hd
    | cons l above =>
      have hleft : (s.step .leave).around = above ++ outer := by
        rw [step, hs]
        rfl
      exact ih hleft (Nat.succ.inj hd)

theorem run_append (s : Session) (ms ns : List Move) : s.run (ms ++ ns) = (s.run ms).run ns :=
  List.foldl_append

theorem run_enter_leave (s : Session) (margin : Margin) {ms : List Move} (h : Within 0 ms 0) :
    s.run (.enter margin :: ms ++ [.leave]) = s := by
  have hentered : (s.step (.enter margin)).around = [] ++ s.ledgers := rfl
  obtain ⟨above, habove, haround⟩ := run_around h hentered rfl
  rw [List.length_eq_zero_iff.mp habove, List.nil_append] at haround
  rw [run_append]
  have hleave : ∀ u : Session, u.around = s.ledgers → u.step .leave = s := by
    intro u hu
    rw [step, hu]
    rfl
  exact hleave _ haround

/-- Behind every sequence of moves the account of every flow in use agrees with what it has written:
a flow on its first line is at the start of a line, the counter is zero at the start of a line and
never more than the width, and on a line it is the width of what stands there. What is done in a
nested flow leaves the flows around it as they are. -/
theorem run_keeps_accounts (cols : Nat) (margin : Margin) {ms : List Move}
    (h : ∀ m ∈ ms, m.OneLine) :
    (∀ l ∈ ((start cols margin).run ms).ledgers, l.Balanced cols) ∧
      ∀ nested inner d, Within 0 inner d →
        (∃ above, above.length = d ∧
          (((start cols margin).run ms).run (.enter nested :: inner)).around =
            above ++ ((start cols margin).run ms).ledgers) ∧
        (d = 0 → ((start cols margin).run ms).run (.enter nested :: inner ++ [.leave]) =
          (start cols margin).run ms) := by
  have hstart : ∀ l ∈ (start cols margin).ledgers, l.Balanced cols := by
    intro l hl
    rw [List.mem_singleton.mp hl]
    exact Ledger.start_balanced cols margin
  refine ⟨run_balanced hstart h, ?_⟩
  intro nested inner d hinner
  constructor
  · have hentered : (((start cols margin).run ms).step (.enter nested)).around =
        [] ++ ((start cols margin).run ms).ledgers := rfl
    obtain ⟨above, hlength, haround⟩ := run_around hinner hentered rfl
    exact ⟨above, hlength, haround⟩
  · rintro rfl
    exact run_enter_leave _ nested hinner

/-- A quote in which an item is begun: the second token of the item does not fit, and within the
item a margin alone is wider than all columns, so the line of a token with nothing in it ends at
once. -/
def quotedItem : List Move :=
  [.call (.writeAll ["1.".toList, [], "b".toList]), .enter ⟨"- ".toList, "  ".toList⟩,
    .call (.writeAll ["+".toList, "cd".toList]), .enter ⟨"> > ".toList, "> > ".toList⟩,
    .call .newline, .call (.write [])]

theorem run_keeps_accounts_quotedItem :
    (∀ l ∈ ((start 7 ⟨"> ".toList, "> ".toList⟩).run quotedItem).ledgers, l.Balanced 7) ∧
      ((start 7 ⟨"> ".toList, "> ".toList⟩).run quotedItem).ledgers.map
          (fun l => (String.ofList l.own, l.flow.count)) =
        [(">   > > \n>   > > \n", 0), ("> - \\+\n>   cd", 6), ("> 1\\. b", 7)] ∧
      ((start 7 ⟨"> ".toList, "> ".toList⟩).run quotedItem).run
          (.enter ⟨[], []⟩ :: [.call (.write "wide".toList), .call .terminate] ++ [.leave]) =
        (start 7 ⟨"> ".toList, "> ".toList⟩).run quotedItem := by
  have hflat : ∀ m ∈ quotedItem, m.OneLine := by decide
  have hkeeps := run_keeps_accounts 7 ⟨"> ".toList, "> ".toList⟩ hflat
  have hinner : Within 0 [.call (.write "wide".toList), .call .terminate] 0 :=
    .call _ (.call _ (.done 0))
  refine ⟨hkeeps.1, by decide, ?_⟩
  exact (hkeeps.2 ⟨[], []⟩ _ 0 hinner).2 rfl

end Session
end CanonMark.Layout
