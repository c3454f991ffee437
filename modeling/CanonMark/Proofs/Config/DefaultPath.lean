import CanonMark.Config.Load
import CanonMark.Proofs.Files.Paths
import Mathlib.Data.List.TakeWhile

/-! # The settings of the home directory

The path of the settings that are read by default is the home directory and a fixed rest. Loading
expands this path like one that a user gives, although the home directory is a value that nobody
wrote with variables or tildes in mind. So the file that is read is the one at the path only if
the expansion leaves the home directory alone.
-/
namespace CanonMark

namespace Environment

/-- A home directory that the expansion of a path below it gives back. -/
inductive Keeps (env : Environment) (home : Text) : Prop where
  | unset : env.expandVariables? home = none → Keeps env home
  | plain : env.expandVariables? home = some home → ¬ "~/".toList <+: home → Keeps env home
  | tilde : home.head? = some '~' → env.expandVariables? home = some ['~'] → Keeps env home

def rest : Text := "/.config/mdfmt/config.toml".toList

variable (env : Environment)

/-- The first piece of a text that is not empty: what it stands for, if anything, and what follows
it. -/
inductive Piece (env : Environment) : Text → Option Text → Text → Prop where
  | plain {c : Char} (after : Text) : c ≠ '$' → Piece env (c :: after) (some [c]) after
  | doubled (after : Text) : Piece env ('$' :: '$' :: after) (some ['$']) after
  | braced {body : Text} (after : Text) : '\x7d' ∉ body →
      Piece env ('$' :: '\x7b' :: (body ++ '\x7d' :: after)) (env.braced? body) after
  | opened {after : Text} : '\x7d' ∉ after →
      Piece env ('$' :: '\x7b' :: after) (some ['$', '\x7b']) after
  | named {c : Char} {name after : Text} : isNameStart c = true →
      (∀ d ∈ c :: name, isNameChar d = true) → (∀ d ∈ after.head?, isNameChar d = false) →
      Piece env ('$' :: c :: (name ++ after)) (env.lookup? (c :: name)) after
  | lone {after : Text} :
      (∀ c ∈ after.head?, isNameStart c = false ∧ c ≠ '$' ∧ c ≠ '\x7b') →
      Piece env ('$' :: after) (some ['$']) after

theorem expandWith_piece {t after : Text} {value : Option Text} (h : Piece env t value after)
    (fuel : Nat) : env.expandWith? (fuel + 1) t =
      value.bind fun v => (env.expandWith? fuel after).map (v ++ ·) := by
  cases h with
  | plain _ hc =>
    rw [expandWith?]
    · rfl
    · exact hc
  | doubled => rfl
  | @braced body _ hbody =>
    have hrun : (body ++ '\x7d' :: after).takeWhile (· != '\x7d') = body := by
      rw [List.takeWhile_append_of_pos]
      · simp
      · intro c hc
        simpa using ne_of_mem_of_not_mem hc hbody
    rw [expandWith?, hrun, List.drop_left]
    simp only [Option.map_eq_bind]
    rfl
  | opened hinner =>
    have hrun : after.takeWhile (· != '\x7d') = after := by
      rw [List.takeWhile_eq_self_iff]
      intro c hc
      simpa using ne_of_mem_of_not_mem hc hinner
    rw [expandWith?, hrun, List.drop_length]
    rfl
  | @named c name _ hc hname hafter =>
    have hrun : (c :: (name ++ after)).takeWhile isNameChar = c :: name := by
      have hstop : after.takeWhile isNameChar = [] := by
        cases after with
        | nil => rfl
        | cons d after => simp [hafter d rfl]
      rw [← List.cons_append, List.takeWhile_append_of_pos hname, hstop, List.append_nil]
    have hdrop : (c :: (name ++ after)).drop (c :: name).length = after := List.drop_left
    rw [expandWith?, if_pos hc, hrun]
    · simp only [hdrop, Option.map_eq_bind]
      rfl
    · rintro rfl
      exact absurd hc (by decide)
    · rintro rfl
      exact absurd hc (by decide)
  | lone hlone =>
    cases after with
    | nil => cases fuel <;> rfl
    | cons c after =>
      obtain ⟨hname, hdollar, hbrace⟩ := hlone c rfl
      rw [expandWith?, if_neg (by simp [hname])]
      · rfl
      · exact hdollar
      · exact hbrace

theorem exists_name (t : Text) : ∃ name after, t = name ++ after ∧
    (∀ c ∈ name, isNameChar c = true) ∧ ∀ c ∈ after.head?, isNameChar c = false := by
  refine ⟨t.takeWhile isNameChar, t.dropWhile isNameChar,
    List.takeWhile_append_dropWhile.symm, fun c => List.mem_takeWhile_imp, ?_⟩
  intro c hc
  have hfirst := List.head?_dropWhile_not isNameChar t
  rwa [Option.mem_def.mp hc] at hfirst

theorem exists_piece_dollar (t : Text) :
    ∃ value after, Piece env ('$' :: t) value after ∧ after.length ≤ t.length := by
  cases t with
  | nil => exact ⟨_, [], .lone (by simp), Nat.le_refl 0⟩
  | cons c t =>
    by_cases hdollar : c = '$'
    · subst hdollar
      exact ⟨_, t, .doubled t, Nat.le_succ _⟩
    by_cases hbrace : c = '\x7b'
    · subst hbrace
      by_cases hclose : '\x7d' ∈ t
      · obtain ⟨body, after, rfl, hbody⟩ := List.eq_append_cons_of_mem hclose
        refine ⟨_, after, .braced after hbody, ?_⟩
        rw [List.length_cons, List.length_append, List.length_cons]
        omega
      · exact ⟨_, t, .opened hclose, Nat.le_succ _⟩
    by_cases hname : isNameStart c = true
    · obtain ⟨name, after, rfl, hall, hstop⟩ := exists_name t
      have hrun : ∀ d ∈ c :: name, isNameChar d = true :=
        List.forall_mem_cons.mpr ⟨(Bool.and_eq_true_iff.mp hname).1, hall⟩
      refine ⟨_, after, .named hname hrun hstop, ?_⟩
      rw [List.length_cons, List.length_append]
      omega
    · rw [Bool.not_eq_true] at hname
      refine ⟨_, c :: t, .lone ?_, Nat.le_refl _⟩
      rintro d ⟨⟩
      exact ⟨hname, hdollar, hbrace⟩

theorem exists_piece (c : Char) (t : Text) :
    ∃ value after, Piece env (c :: t) value after ∧ after.length ≤ t.length := by
  by_cases hc : c = '$'
  · subst hc
    exact exists_piece_dollar env t
  · exact ⟨_, t, .plain t hc, Nat.le_refl _⟩

variable {env}

/-- A slash and what follows it, with no closing brace, change no piece before them. -/
theorem Piece.append {t after : Text} {value : Option Text} (h : Piece env t value after) {u : Text}
    (hclose : '\x7d' ∉ '/' :: u) : Piece env (t ++ '/' :: u) value (after ++ '/' :: u) := by
  cases h with
  | plain _ hc => exact .plain _ hc
  | doubled => exact .doubled _
  | braced _ hbody =>
    rw [List.cons_append, List.cons_append, List.append_assoc]
    exact .braced _ hbody
  | opened hinner =>
    have hnone : '\x7d' ∉ after ++ '/' :: u := by
      rw [List.mem_append, not_or]
      exact ⟨hinner, hclose⟩
    exact .opened hnone
  | named hc hname hafter =>
    rw [List.cons_append, List.cons_append, List.append_assoc]
    apply Piece.named hc hname
    cases after with
    | nil =>
      rintro c ⟨⟩
      decide
    | cons c after => exact hafter
  | lone hlone =>
    apply Piece.lone
    cases after with
    | nil =>
      rintro c ⟨⟩
      decide
    | cons c after => exact hlone

variable (env)

theorem expandWith_of_not_mem {t : Text} (h : '$' ∉ t) {fuel : Nat} (hfuel : t.length ≤ fuel) :
    env.expandWith? fuel t = some t := by
  induction t generalizing fuel with
  | nil => cases fuel <;> rfl
  | cons c t ih =>
    rw [List.mem_cons, not_or] at h
    cases fuel with
    | zero => cases hfuel
    | succ fuel =>
      rw [expandWith_piece env (.plain t (Ne.symm h.1)), ih h.2 (Nat.le_of_succ_le_succ hfuel)]
      rfl

/-- A rest that neither goes on with a variable nor holds one stays behind what is expanded before
it. -/
theorem expandWith_append {u : Text} (hdollar : '$' ∉ '/' :: u) (hclose : '\x7d' ∉ '/' :: u)
    {home : Text} {m n : Nat} (hm : home.length ≤ m) (hn : (home ++ '/' :: u).length ≤ n) :
    env.expandWith? n (home ++ '/' :: u) = (env.expandWith? m home).map (· ++ '/' :: u) := by
  induction m generalizing home n with
  | zero =>
    obtain rfl : home = [] := List.length_eq_zero_iff.mp (Nat.le_zero.mp hm)
    exact expandWith_of_not_mem env hdollar hn
  | succ m ih =>
    cases home with
    | nil => exact expandWith_of_not_mem env hdollar hn
    | cons c home =>
      obtain ⟨value, after, hpiece, hlength⟩ := exists_piece env c home
      rw [List.cons_append, List.length_cons, List.length_append] at hn
      rw [List.length_cons] at hm
      obtain ⟨n, rfl⟩ : ∃ k, n = k + 1 := Nat.exists_eq_add_one.mpr (by omega)
      have hafter : (after ++ '/' :: u).length ≤ n := by
        rw [List.length_append]
        omega
      rw [expandWith_piece env (hpiece.append hclose), expandWith_piece env hpiece,
        ih (by omega) hafter, Option.map_bind]
      simp only [Option.map_map, Function.comp_def, List.append_assoc]

theorem expandVariables_below (home : Text) :
    env.expandVariables? (home ++ rest) = (env.expandVariables? home).map (· ++ rest) :=
  expandWith_append env (by decide) (by decide) (Nat.le_refl _) (Nat.le_refl _)

theorem expandVariables_of_not_mem {t : Text} (h : '$' ∉ t) : env.expandVariables? t = some t :=
  expandWith_of_not_mem env h (Nat.le_refl _)

variable {env}

theorem expandTilde_of_some {home : Text} (hhome : env.home? = some home) {t : Text}
    (ht : t.head?.all (· == '/') = true) : env.expandTilde ('~' :: t) = home ++ t := by
  rw [expandTilde, if_pos ht, hhome]
  rfl

theorem expandTilde_of_none (hhome : env.home? = none) (path : Text) :
    env.expandTilde path = path := by
  unfold expandTilde
  split
  · rw [hhome, Option.map_none, Option.getD_none, ite_self]
  · rfl

theorem expandTilde_of_forall {path : Text}
    (h : ∀ t, path = '~' :: t → t.head?.all (· == '/') = false) : env.expandTilde path = path := by
  unfold expandTilde
  split
  · next t => rw [h t rfl, if_neg Bool.false_ne_true]
  · rfl

/-- A tilde at the front gives the home directory, and the rest follows at once only if nothing
stood between them. -/
theorem expandTilde_below_iff {home : Text} (hhome : env.home? = some home) (value : Text) :
    env.expandTilde (value ++ rest) = home ++ rest ↔
      value = ['~'] ∨ value = home ∧ ¬ "~/".toList <+: home := by
  by_cases htilde : ∃ t, value ++ rest = '~' :: t ∧ t.head?.all (· == '/') = true
  · obtain ⟨t, ht, hslash⟩ := htilde
    cases value with
    | nil => cases ht
    | cons c value =>
      rw [List.cons_append, List.cons.injEq] at ht
      obtain ⟨rfl, rfl⟩ := ht
      rw [List.cons_append, expandTilde_of_some hhome hslash, List.append_cancel_left_eq]
      constructor
      · intro h
        obtain rfl : value = [] := by simpa using h
        exact .inl rfl
      · rintro (h | ⟨rfl, h⟩)
        · obtain rfl : value = [] := by simpa using h
          rfl
        · cases value with
          | nil => rfl
          | cons d value =>
            obtain rfl : d = '/' := by simpa using hslash
            exact absurd ⟨value, rfl⟩ h
  · have hsame : env.expandTilde (value ++ rest) = value ++ rest := by
      apply expandTilde_of_forall
      intro t ht
      rw [← Bool.not_eq_true]
      intro hslash
      exact htilde ⟨t, ht, hslash⟩
    rw [hsame, List.append_cancel_right_eq]
    constructor
    · rintro rfl
      refine .inr ⟨rfl, ?_⟩
      rintro ⟨t, rfl⟩
      exact htilde ⟨'/' :: t ++ rest, rfl, rfl⟩
    · rintro (rfl | ⟨rfl, -⟩)
      · exact absurd ⟨rest, rfl, rfl⟩ htilde
      · rfl

theorem head?_below (home : Text) :
    (home ++ rest).head? = some '~' ↔ home.head? = some '~' := by
  cases home with
  | nil => decide
  | cons c home => rfl

theorem expand_below_iff {home : Text} (hhome : env.home? = some home) :
    env.expand (home ++ rest) = home ++ rest ↔ env.Keeps home := by
  have hbelow := expandVariables_below env home
  cases hvalue : env.expandVariables? home with
  | none =>
    rw [hvalue] at hbelow
    rw [expand, hbelow]
    exact ⟨fun _ => .unset hvalue, fun _ => rfl⟩
  | some value =>
    rw [hvalue] at hbelow
    rw [expand, hbelow]
    simp only [Option.map_some, beq_iff_eq, head?_below]
    split
    · next hhead =>
      rw [expandTilde_below_iff hhome]
      constructor
      · rintro (rfl | ⟨rfl, hplain⟩)
        · exact .tilde hhead hvalue
        · exact .plain hvalue hplain
      · rintro (hnone | ⟨hsome, hplain⟩ | ⟨-, hsome⟩)
        · rw [hvalue] at hnone
          cases hnone
        · rw [hvalue, Option.some_inj] at hsome
          exact .inr ⟨hsome, hplain⟩
        · rw [hvalue, Option.some_inj] at hsome
          exact .inl hsome
    · next hhead =>
      rw [List.append_cancel_right_eq]
      constructor
      · rintro rfl
        refine .plain hvalue ?_
        rintro ⟨t, rfl⟩
        exact hhead rfl
      · rintro (hnone | ⟨hsome, hplain⟩ | ⟨htilde, -⟩)
        · rw [hvalue] at hnone
          cases hnone
        · rwa [hvalue, Option.some_inj] at hsome
        · exact absurd htilde hhead

theorem expand_of_none (hhome : env.home? = none) :
    env.expand ('~' :: rest) = '~' :: rest := by
  have hfree : env.expandVariables? ('~' :: rest) = some ('~' :: rest) :=
    expandVariables_of_not_mem env (by decide)
  rw [expand, hfree]
  exact (if_pos rfl).trans (expandTilde_of_none hhome _)

theorem keeps_of_not_mem {home : Text} (hdollar : '$' ∉ home) (htilde : ¬ "~/".toList <+: home) :
    env.Keeps home :=
  .plain (expandVariables_of_not_mem env hdollar) htilde

end Environment

namespace Entry

def grown (names : List Text) : Nat → Text → Entry
  | 0, n => .directory n []
  | depth + 1, n => .directory n (names.map (grown names depth))

variable {names : List Text}

theorem child?_grown {name : Text} (hname : name ∈ names) (depth : Nat) (n : Text) :
    (grown names (depth + 1) n).child? name = some (grown names depth name) := by
  have hnamed : ∀ m, (grown names depth m).name = m := by
    intro m
    cases depth <;> rfl
  rw [grown, child?, List.find?_map]
  have hfind : names.find? ((fun c => c.name == name) ∘ grown names depth) = some name := by
    obtain ⟨before, after, rfl, hbefore⟩ := List.eq_append_cons_of_mem hname
    rw [List.find?_eq_some_iff_append]
    refine ⟨by simp [hnamed], before, after, rfl, ?_⟩
    intro m hm
    simpa [hnamed] using ne_of_mem_of_not_mem hm hbefore
  rw [hfind]
  rfl

theorem descend_grown {place : List Text} (hplace : ∀ n ∈ place, n ∈ names) {depth : Nat}
    (hdepth : place.length ≤ depth) (n : Text) :
    ∃ m es, (grown names depth n).descend place = some (.directory m es) := by
  induction place generalizing depth n with
  | nil =>
    cases depth
    · exact ⟨n, _, rfl⟩
    · exact ⟨n, _, rfl⟩
  | cons name place ih =>
    cases depth with
    | zero => cases hdepth
    | succ depth =>
      rw [descend, child?_grown (hplace name List.mem_cons_self), Option.bind_some]
      exact ih (fun m hm => hplace m (List.mem_cons_of_mem _ hm)) (Nat.le_of_succ_le_succ hdepth) _

end Entry

namespace Disk

theorem follow_grown {names place steps : List Text} (hplace : ∀ n ∈ place, n ∈ names)
    (hsteps : ∀ n ∈ steps, n ∈ names) {depth : Nat}
    (hdepth : place.length + steps.length ≤ depth) :
    ∃ q m es, follow (Entry.grown names depth []) place steps = .ok q ∧
      (Entry.grown names depth []).descend q = some (.directory m es) := by
  induction steps generalizing place with
  | nil =>
    obtain ⟨m, es, hdir⟩ := Entry.descend_grown hplace (Nat.le_of_add_right_le hdepth) []
    exact ⟨place, m, es, rfl, hdir⟩
  | cons step steps ih =>
    rw [List.length_cons] at hdepth
    rw [List.forall_mem_cons] at hsteps
    have hshort : place.length ≤ depth := by omega
    obtain ⟨m, es, hdir⟩ := Entry.descend_grown hplace hshort []
    have hmoves : ∃ p, Moves (Entry.grown names depth []) place step p ∧
        (∀ n ∈ p, n ∈ names) ∧ p.length ≤ place.length + 1 := by
      by_cases hstay : step = [] ∨ step = ['.']
      · exact ⟨place, .stay hstay, hplace, Nat.le_succ _⟩
      · obtain ⟨hne, hdot⟩ := not_or.mp hstay
        by_cases hup : step = ['.', '.']
        · refine ⟨place.dropLast, hup ▸ .up, ?_, ?_⟩
          · intro n hn
            exact hplace n (List.dropLast_subset _ hn)
          · rw [List.length_dropLast]
            omega
        · have hdown : ∀ n ∈ place ++ [step], n ∈ names := by
            simpa [or_imp, forall_and] using ⟨hplace, hsteps.1⟩
          have hnext : (place ++ [step]).length ≤ depth := by
            rw [List.length_append, List.length_singleton]
            omega
          obtain ⟨k, ks, hthere⟩ := Entry.descend_grown hdown hnext []
          refine ⟨place ++ [step], .down hne hdot hup ?_, hdown, by simp⟩
          rw [hthere]
          rfl
    obtain ⟨p, hmove, hp, hlength⟩ := hmoves
    obtain ⟨q, k, ks, hq, hdirq⟩ := ih hp hsteps.2 (by omega)
    exact ⟨q, k, ks, follow_cons.mpr ⟨⟨m, es, hdir⟩, p, hmove, hq⟩, hdirq⟩

/-- A path leads to an entry that the process may read. -/
def Shows (d : Disk) (path : Text) (e : Entry) : Prop :=
  ∃ place, d.resolve path = .ok place ∧ d.root.descend place = some e ∧ d.denial? place = none

def Denies (d : Disk) (path : Text) (cause : OsError) : Prop :=
  ∃ place e, d.resolve path = .ok place ∧ d.root.descend place = some e ∧
    d.denial? place = some cause

theorem missing_or_denies_or_shows (d : Disk) (path : Text) :
    d.entry? path = none ∨ (∃ cause, d.Denies path cause) ∨ ∃ e, d.Shows path e := by
  cases hplace : d.resolve path with
  | error e =>
    left
    simp only [Disk.entry?, hplace]
  | ok place =>
    cases hentry : d.root.descend place with
    | none =>
      left
      simp only [Disk.entry?, hplace, hentry]
    | some e =>
      right
      cases hdenial : d.denial? place with
      | none => exact .inr ⟨e, place, hplace, hentry, hdenial⟩
      | some cause => exact .inl ⟨cause, place, e, hplace, hentry, hdenial⟩

theorem exists_directory {path : Text} (hpath : path ≠ []) :
    ∃ d place m es, resolve d path = .ok place ∧ d.denial? place = none ∧
      d.root.descend place = some (.directory m es) := by
  have hnone : ∀ n ∈ ([] : List Text), n ∈ Path.steps path := by simp
  obtain ⟨q, m, es, hq, hdir⟩ := follow_grown hnone (fun _ hn => hn) (Nat.le_refl _)
  refine ⟨⟨_, ⟨[], []⟩⟩, q, m, es, ?_, rfl, hdir⟩
  rw [resolve, if_neg (by simpa using hpath), origin, here, ite_self]
  exact hq

end Disk

namespace Settings

/-- What it means to read the settings at a path: there is nothing, or a file with settings, or an
error that names the path. -/
inductive Reads (d : Disk) (path : Text) : Except ConfigError (Option Settings) → Prop where
  | missing : d.entry? path = none → Reads d path (.ok none)
  | denied {cause : OsError} : d.Denies path cause →
      Reads d path (.error (.unreadable path (.os cause)))
  | directory {n : Text} {es : List Entry} : d.Shows path (.directory n es) →
      Reads d path (.error (.unreadable path (.os .isDirectory)))
  | notText {n : Text} {content : Bytes} {fault : Utf8.Fault} :
      d.Shows path (.file n content) → Utf8.decode content = .error fault →
      Reads d path (.error (.unreadable path .notText))
  | malformed {n t : Text} {content : Bytes} : d.Shows path (.file n content) →
      Utf8.decode content = .ok t → parse? t = none → Reads d path (.error (.malformed path))
  | settings {n t : Text} {content : Bytes} {s : Settings} :
      d.Shows path (.file n content) → Utf8.decode content = .ok t → parse? t = some s →
      Reads d path (.ok (some s))

theorem readFile_missing {d : Disk} {path : Text} (h : d.entry? path = none) :
    readFile d path = .ok none := by
  rw [readFile, Disk.exists?, h]
  rfl

theorem readFile_entry {d : Disk} {path : Text} {e : Entry} (h : d.entry? path = some e) :
    readFile d path =
      match d.readText path with
      | .error fault => .error (.unreadable path fault)
      | .ok t =>
        match parse? t with
        | some s => .ok (some s)
        | none => .error (.malformed path) := by
  rw [readFile, Disk.exists?, h]
  rfl

theorem readFile_of_denies {d : Disk} {path : Text} {cause : OsError} (h : d.Denies path cause) :
    readFile d path = .error (.unreadable path (.os cause)) := by
  obtain ⟨place, e, hplace, hentry, hdenial⟩ := h
  have hthere : d.entry? path = some e := by simp only [Disk.entry?, hplace, hentry]
  have hread : d.read path = .error cause := by simp only [Disk.read, Disk.readAt, hplace, hdenial]
  rw [readFile_entry hthere, Disk.readText, hread]

theorem readFile_of_directory {d : Disk} {path n : Text} {es : List Entry}
    (h : d.Shows path (.directory n es)) :
    readFile d path = .error (.unreadable path (.os .isDirectory)) := by
  obtain ⟨place, hplace, hentry, hopen⟩ := h
  have hthere : d.entry? path = some (.directory n es) := by
    simp only [Disk.entry?, hplace, hentry]
  have hread : d.read path = .error .isDirectory := by
    simp only [Disk.read, Disk.readAt, hplace, hopen, hentry]
  rw [readFile_entry hthere, Disk.readText, hread]

theorem readFile_of_file {d : Disk} {path n : Text} {content : Bytes}
    (h : d.Shows path (.file n content)) :
    readFile d path =
      match Utf8.decode content with
      | .error _ => .error (.unreadable path .notText)
      | .ok t =>
        match parse? t with
        | some s => .ok (some s)
        | none => .error (.malformed path) := by
  obtain ⟨place, hplace, hentry, hopen⟩ := h
  have hthere : d.entry? path = some (.file n content) := by
    simp only [Disk.entry?, hplace, hentry]
  have hread : d.read path = .ok content := by
    simp only [Disk.read, Disk.readAt, hplace, hopen, hentry]
  rw [readFile_entry hthere, Disk.readText, hread]
  cases hdecode : Utf8.decode content with
  | error fault => simp only [hdecode]
  | ok t => simp only [hdecode]

theorem reads_readFile (d : Disk) (path : Text) : Reads d path (readFile d path) := by
  rcases d.missing_or_denies_or_shows path with hnone | ⟨cause, hdenies⟩ | ⟨e, hshows⟩
  · rw [readFile_missing hnone]
    exact .missing hnone
  · rw [readFile_of_denies hdenies]
    exact .denied hdenies
  · cases e with
    | directory n es =>
      rw [readFile_of_directory hshows]
      exact .directory hshows
    | file n content =>
      rw [readFile_of_file hshows]
      cases hdecode : Utf8.decode content with
      | error fault => exact .notText hshows hdecode
      | ok t =>
        cases hparse : parse? t with
        | none =>
          simp only [hparse]
          exact .malformed hshows hdecode hparse
        | some s =>
          simp only [hparse]
          exact .settings hshows hdecode hparse

theorem reads_iff {d : Disk} {path : Text} {r : Except ConfigError (Option Settings)} :
    Reads d path r ↔ readFile d path = r := by
  constructor
  · intro h
    cases h with
    | missing hentry => exact readFile_missing hentry
    | denied hdenies => exact readFile_of_denies hdenies
    | directory hshows => exact readFile_of_directory hshows
    | notText hshows hdecode =>
      rw [readFile_of_file hshows]
      simp only [hdecode]
    | malformed hshows hdecode hparse =>
      rw [readFile_of_file hshows]
      simp only [hdecode, hparse]
    | settings hshows hdecode hparse =>
      rw [readFile_of_file hshows]
      simp only [hdecode, hparse]
  · rintro rfl
    exact reads_readFile d path

theorem eq_of_reads {p q : Text} (hp : p ≠ []) (h : ∀ d, Reads d p (readFile d q)) : q = p := by
  obtain ⟨d, place, m, es, hplace, hopen, hdir⟩ := Disk.exists_directory hp
  have hsame : readFile d p = readFile d q := reads_iff.mp (h d)
  have hthere := reads_readFile d q
  rw [← hsame, readFile_of_directory ⟨place, hplace, hdir, hopen⟩] at hthere
  cases hthere with
  | directory _ => rfl
  | denied _ => rfl

variable {env : Environment}

theorem defaultPath_of_some {home : Text} (hhome : env.home? = some home) :
    defaultPath env = home ++ Environment.rest := by
  have htilde : env.expandTilde "~/.config/mdfmt".toList = home ++ "/.config/mdfmt".toList :=
    Environment.expandTilde_of_some hhome rfl
  have hopen : (home ++ "/.config/mdfmt".toList).getLast? = some 't' := by
    rw [List.getLast?_append]
    rfl
  rw [defaultPath, htilde, Path.join, if_neg]
  · exact List.append_assoc _ _ _
  · rw [hopen]
    simp

theorem defaultPath_of_none (hhome : env.home? = none) :
    defaultPath env = '~' :: Environment.rest := by
  rw [defaultPath, Environment.expandTilde_of_none hhome]
  decide

theorem defaultPath_ne_nil (env : Environment) : defaultPath env ≠ [] := by
  cases hhome : env.home? with
  | none =>
    rw [defaultPath_of_none hhome]
    exact List.cons_ne_nil _ _
  | some home =>
    rw [defaultPath_of_some hhome]
    exact List.append_ne_nil_of_right_ne_nil _ (List.cons_ne_nil _ _)

theorem expand_defaultPath_iff :
    env.expand (defaultPath env) = defaultPath env ↔ ∀ home ∈ env.home?, env.Keeps home := by
  cases hhome : env.home? with
  | none =>
    rw [defaultPath_of_none hhome]
    refine ⟨?_, fun _ => Environment.expand_of_none hhome⟩
    rintro - home ⟨⟩
  | some home =>
    rw [defaultPath_of_some hhome, Environment.expand_below_iff hhome]
    constructor
    · rintro hkeeps _ ⟨⟩
      exact hkeeps
    · intro h
      exact h home rfl

/-- Loading reads the file at the default path, whatever is on the disk, exactly if expanding a path
below the home directory leaves the home directory as it is. It does so for a home directory without
variables and without a tilde at the front. -/
theorem load_reads_default_path_iff (env : Environment) :
    ((∀ d, Reads d (defaultPath env) (load env d)) ↔ ∀ home ∈ env.home?, env.Keeps home) ∧
      ∀ home, '$' ∉ home → ¬ "~/".toList <+: home → env.Keeps home := by
  refine ⟨?_, fun home => Environment.keeps_of_not_mem⟩
  rw [← expand_defaultPath_iff]
  constructor
  · intro h
    exact eq_of_reads (defaultPath_ne_nil env) h
  · intro h d
    rw [load, loadFrom, h]
    exact reads_readFile d (defaultPath env)

/-- The home directory is `h$X` and holds the settings; there is a variable `X`. -/
def dollarHome : Environment where
  lookup? name :=
    if name = "HOME".toList then some "h$X".toList
    else if name = "X".toList then some "y".toList
    else none
  accountHome := none

def dollarDisk : Disk where
  root :=
    .directory [] [.directory "h$X".toList [.directory ".config".toList
      [.directory "mdfmt".toList [.file "config.toml".toList (Utf8.encode "cols = 33\n".toList)]]]]
  process := ⟨[], []⟩

/-- The settings at the default path are there, but they are looked for below `hy`. -/
theorem load_misses_default_path :
    Reads dollarDisk (defaultPath dollarHome) (.ok (some ⟨some 33⟩)) ∧
      load dollarHome dollarDisk = .ok none := by
  have hpath : defaultPath dollarHome = "h$X/.config/mdfmt/config.toml".toList := by decide
  have hexpand : dollarHome.expand "h$X/.config/mdfmt/config.toml".toList =
      "hy/.config/mdfmt/config.toml".toList := by decide
  have htext : Utf8.decode (Utf8.encode "cols = 33\n".toList) = .ok "cols = 33\n".toList := by
    simp [Utf8.decode, Utf8.encode, Utf8.decodeFrom, String.utf8EncodeChar]
  have hparse : parse? "cols = 33\n".toList = some ⟨some 33⟩ := by decide
  constructor
  · rw [hpath]
    exact .settings ⟨_, rfl, rfl, rfl⟩ htext hparse
  · rw [load, loadFrom, hpath, hexpand]
    exact readFile_missing rfl

end Settings
end CanonMark
