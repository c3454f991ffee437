import CanonMark.Proofs.Files.Places
import CanonMark.Proofs.Layout.Fill

/-! # Following paths

Where a path leads depends on the shape of a disk only. A path that leads to a file ends in the name
of the file, and the rest of it leads to the directory that holds the file. Storing to such a path
therefore makes no directory and puts the file where it was.
-/
namespace CanonMark

namespace Path

def names (path : Text) : List Text := (Text.splitOn '/' path).filter fun p => !p.isEmpty

theorem splitOn_join (path : Text) {name : Text} (hname : '/' ∉ name) :
    ∃ pieces, Text.splitOn '/' (join path name) = pieces ++ [name] ∧
      pieces.filter (fun p => !p.isEmpty) = names path := by
  have hlast : Text.splitOn '/' name = [name] := Layout.splitOn_of_not_mem hname
  rw [join]
  rcases List.eq_nil_or_concat' path with rfl | ⟨front, c, rfl⟩
  · exact ⟨[], hlast, rfl⟩
  · by_cases hc : c = '/'
    · subst hc
      refine ⟨Text.splitOn '/' front, ?_, ?_⟩
      · rw [if_pos (by simp), List.append_assoc, List.singleton_append,
          Layout.splitOn_append_sep, hlast]
      · rw [names, Layout.splitOn_append_sep, List.filter_append]
        simp [Text.splitOn]
    · refine ⟨Text.splitOn '/' (front ++ [c]), ?_, rfl⟩
      rw [if_neg (by simp [hc]), Layout.splitOn_append_sep, hlast]

theorem steps_join (path : Text) {name : Text} (hname : '/' ∉ name) :
    steps (join path name) = names path ++ [name] := by
  obtain ⟨pieces, hsplit, hnames⟩ := splitOn_join path hname
  rw [steps, hsplit, List.dropLast_concat, hnames, List.getLast?_concat]
  rfl

theorem steps_eq_concat (path : Text) : ∃ front last, steps path = front ++ [last] ∧
    names path = (front ++ [last]).filter fun p => !p.isEmpty := by
  obtain ⟨pieces, last, hsplit⟩ :=
    (List.eq_nil_or_concat' (Text.splitOn '/' path)).resolve_left (Layout.splitOn_ne_nil '/' path)
  refine ⟨pieces.filter fun p => !p.isEmpty, last, ?_, ?_⟩
  · rw [steps, hsplit, List.dropLast_concat, List.getLast?_concat]
    rfl
  · rw [names, hsplit]
    simp

theorem names_eq_filter_steps (path : Text) :
    names path = (steps path).filter fun p => !p.isEmpty := by
  obtain ⟨front, last, hsteps, hnames⟩ := steps_eq_concat path
  rw [hsteps, hnames]

theorem components_eq (path : Text) : components path =
    match names path with
    | first :: rest =>
      if first == ['.'] && isAbsolute path then rest.filter (· != ['.'])
      else first :: rest.filter (· != ['.'])
    | [] => [] :=
  rfl

theorem parent?_of_name {path n : Text} (hnames : names path = [n]) (hdot : n ≠ ['.']) :
    parent? path = some [] := by
  simp [parent?, components_eq, hnames, hdot]

theorem parent?_of_names {path first n : Text} {rest : List Text}
    (hnames : names path = first :: rest ++ [n]) (hdot : n ≠ ['.']) :
    parent? path = some (if first == ['.'] && isAbsolute path then rest.filter (· != ['.'])
      else first :: rest.filter (· != ['.'])) := by
  have hlast : [n].filter (· != ['.']) = [n] := by simpa using hdot
  rw [parent?, components_eq, hnames, List.cons_append]
  simp only [List.filter_append, hlast]
  split
  · rw [List.dropLast_concat]
    simp
  · rw [← List.cons_append, List.dropLast_concat]
    simp

theorem isAbsolute_join {path : Text} (hpath : path ≠ []) (name : Text) :
    isAbsolute (join path name) = isAbsolute path := by
  obtain ⟨c, cs, rfl⟩ := List.exists_cons_of_ne_nil hpath
  rw [join]
  split <;> rfl

end Path

namespace Disk

/-- The disk with all contents taken away. -/
def shape (d : Disk) : Disk := { d with root := d.root.shape }

/-- Where one step of a path leads from a directory. -/
inductive Moves (root : Entry) (place : List Text) : Text → List Text → Prop where
  | stay {step : Text} : step = [] ∨ step = ['.'] → Moves root place step place
  | up : Moves root place ['.', '.'] place.dropLast
  | down {name : Text} : name ≠ [] → name ≠ ['.'] → name ≠ ['.', '.'] →
      (root.descend (place ++ [name])).isSome → Moves root place name (place ++ [name])

theorem follow_of_moves {root : Entry} {place p steps : List Text} {step n : Text}
    {es : List Entry} (hdir : root.descend place = some (.directory n es))
    (hmove : Moves root place step p) :
    follow root place (step :: steps) = follow root p steps := by
  rw [follow, hdir]
  cases hmove with
  | stay hstay => exact if_pos (by simpa using hstay)
  | up => rfl
  | down hne hdot hdots hsome => simp [hne, hdot, hdots, hsome]

theorem moves_of_follow {root : Entry} {place steps q : List Text} {step : Text}
    (h : follow root place (step :: steps) = .ok q) :
    (∃ n es, root.descend place = some (.directory n es)) ∧ ∃ p, Moves root place step p := by
  rw [follow] at h
  split at h
  · next n es hdir =>
    refine ⟨⟨n, es, hdir⟩, ?_⟩
    by_cases hstay : step = [] ∨ step = ['.']
    · exact ⟨place, .stay hstay⟩
    · obtain ⟨hne, hdot⟩ := not_or.mp hstay
      by_cases hup : step = ['.', '.']
      · exact ⟨place.dropLast, hup ▸ .up⟩
      · by_cases hdown : (root.descend (place ++ [step])).isSome
        · exact ⟨place ++ [step], .down hne hdot hup hdown⟩
        · simp [hne, hdot, hup, hdown] at h
  · cases h

theorem follow_cons {root : Entry} {place steps q : List Text} {step : Text} :
    follow root place (step :: steps) = .ok q ↔
      (∃ n es, root.descend place = some (.directory n es)) ∧
        ∃ p, Moves root place step p ∧ follow root p steps = .ok q := by
  constructor
  · intro h
    obtain ⟨⟨n, es, hdir⟩, p, hmove⟩ := moves_of_follow h
    exact ⟨⟨n, es, hdir⟩, p, hmove, (follow_of_moves hdir hmove).symm.trans h⟩
  · rintro ⟨⟨n, es, hdir⟩, p, hmove, h⟩
    exact (follow_of_moves hdir hmove).trans h

theorem follow_append {root : Entry} {place steps more q : List Text} :
    follow root place (steps ++ more) = .ok q ↔
      ∃ p, follow root place steps = .ok p ∧ follow root p more = .ok q := by
  induction steps generalizing place with
  | nil => simp [follow]
  | cons step steps ih =>
    rw [List.cons_append, follow_cons]
    constructor
    · rintro ⟨hdir, p, hmove, h⟩
      obtain ⟨r, hr, hmore⟩ := ih.mp h
      exact ⟨r, follow_cons.mpr ⟨hdir, p, hmove, hr⟩, hmore⟩
    · rintro ⟨r, hr, hmore⟩
      obtain ⟨hdir, p, hmove, h⟩ := follow_cons.mp hr
      exact ⟨hdir, p, hmove, ih.mpr ⟨r, h, hmore⟩⟩

theorem follow_singleton {root : Entry} {place q : List Text} {step : Text} :
    follow root place [step] = .ok q ↔
      (∃ n es, root.descend place = some (.directory n es)) ∧ Moves root place step q := by
  rw [follow_cons]
  simp [follow]

theorem follow_filter {root : Entry} {place steps q : List Text} {keep : Text → Bool}
    (hkeep : ∀ step, keep step = false → step = [] ∨ step = ['.'])
    (h : follow root place steps = .ok q) : follow root place (steps.filter keep) = .ok q := by
  induction steps generalizing place with
  | nil => exact h
  | cons step steps ih =>
    obtain ⟨hdir, p, hmove, hrest⟩ := follow_cons.mp h
    cases hk : keep step with
    | true =>
      rw [List.filter_cons_of_pos hk]
      exact follow_cons.mpr ⟨hdir, p, hmove, ih hrest⟩
    | false =>
      rw [List.filter_cons_of_neg (by simp [hk])]
      cases hmove with
      | stay => exact ih hrest
      | up => simpa using hkeep _ hk
      | down hne hdot => exact absurd (hkeep _ hk) (by simp [hne, hdot])

theorem follow_shape (root : Entry) (place steps : List Text) :
    follow root.shape place steps = follow root place steps := by
  induction steps generalizing place with
  | nil => rfl
  | cons step steps ih =>
    rw [follow, follow, Entry.descend_shape, Entry.descend_shape]
    cases root.descend place with
    | none => rfl
    | some e =>
      cases e with
      | file n c => rfl
      | directory n es => simp [Entry.shape, ih]

theorem resolve_shape (d : Disk) (path : Text) : d.shape.resolve path = d.resolve path := by
  rw [resolve, resolve, shape, follow_shape]
  rfl

theorem resolve_of_shape {d d' : Disk} (h : d'.shape = d.shape) (path : Text) :
    d'.resolve path = d.resolve path := by
  rw [← resolve_shape, h, resolve_shape]

@[simp] theorem denial?_shape (d : Disk) (place : List Text) :
    d.shape.denial? place = d.denial? place := rfl

theorem denial?_of_shape {d d' : Disk} (h : d'.shape = d.shape) (place : List Text) :
    d'.denial? place = d.denial? place := by
  rw [← denial?_shape, h, denial?_shape]

mutual
theorem search_shape (d : Disk) : ∀ (place : List Text) (e : Entry),
    d.shape.search place e.shape = d.search place e
  | place, .file name content => rfl
  | place, .directory name entries => by
    rw [Entry.shape, search, search, denial?_shape, searchAmong_shape d place entries]

theorem searchAmong_shape (d : Disk) : ∀ (place : List Text) (es : List Entry),
    d.shape.searchAmong place (Entry.shapes es) = d.searchAmong place es
  | place, [] => rfl
  | place, e :: es => by
    rw [Entry.shapes, searchAmong, searchAmong, Entry.name_shape, search_shape d _ e,
      searchAmong_shape d place es]
end

theorem search_directory_shape (d : Disk) (place : List Text) (n : Text) (es : List Entry) :
    d.shape.search place (.directory n (Entry.shapes es)) = d.search place (.directory n es) :=
  search_shape d place (.directory n es)

theorem follow_steps {d : Disk} {path : Text} {place : List Text}
    (h : d.resolve path = .ok place) :
    path ≠ [] ∧ follow d.root (d.origin path) (Path.steps path) = .ok place := by
  rw [resolve] at h
  cases path with
  | nil => cases h
  | cons c cs => exact ⟨List.cons_ne_nil c cs, h⟩

theorem follow_nonempty {root : Entry} {place steps q : List Text}
    (h : follow root place steps = .ok q) :
    follow root place (steps.filter fun p => !p.isEmpty) = .ok q := by
  refine follow_filter ?_ h
  intro step hstep
  exact .inl (by simpa using hstep)

theorem resolve_join {d : Disk} {path name : Text} {place : List Text}
    (h : d.resolve path = .ok place) (hname : Path.IsName name)
    (hfound : (d.root.descend (place ++ [name])).isSome) :
    d.resolve (Path.join path name) = .ok (place ++ [name]) := by
  obtain ⟨hpath, hfollow⟩ := follow_steps h
  have hjoin : (Path.join path name).isEmpty = false := by
    rw [Path.join]
    split <;> simp [hname.nonempty]
  have horigin : d.origin (Path.join path name) = d.origin path := by
    rw [origin, origin, Path.isAbsolute_join hpath]
  rw [resolve, hjoin, if_neg Bool.false_ne_true, horigin, Path.steps_join path hname.noSlash]
  obtain ⟨e, he⟩ := Option.isSome_iff_exists.mp hfound
  obtain ⟨n, es, hdir, -⟩ := Entry.descend_of_descend_concat he
  refine follow_append.mpr ⟨place, ?_, ?_⟩
  · rw [Path.names_eq_filter_steps]
    exact follow_nonempty hfollow
  · exact follow_singleton.mpr
      ⟨⟨n, es, hdir⟩, .down hname.nonempty hname.notDot hname.notDots hfound⟩

theorem resolve_foldl_join {d : Disk} {path : Text} {place names : List Text}
    (h : d.resolve path = .ok place) (hnames : ∀ name ∈ names, Path.IsName name)
    (hfound : (d.root.descend (place ++ names)).isSome) :
    d.resolve (names.foldl Path.join path) = .ok (place ++ names) := by
  induction names generalizing path place with
  | nil => simpa using h
  | cons name names ih =>
    rw [List.append_cons] at hfound ⊢
    have hnext : (d.root.descend (place ++ [name])).isSome := by
      rw [Entry.descend_append] at hfound
      exact Option.isSome_of_isSome_bind hfound
    exact ih (resolve_join h (hnames name List.mem_cons_self) hnext)
      (fun x hx => hnames x (List.mem_cons_of_mem _ hx)) hfound

/-- A path to a file is a path to its directory with the name of the file behind it. -/
theorem resolve_file {d : Disk} {path : Text} {place : List Text} {n : Text} {c : Bytes}
    (h : d.resolve path = .ok place) (hfile : d.root.descend place = some (.file n c)) :
    ∃ front above, Path.names path = front ++ [n] ∧ n ≠ ['.'] ∧ place = above ++ [n] ∧
      follow d.root (d.origin path) front = .ok above := by
  obtain ⟨-, hfollow⟩ := follow_steps h
  obtain ⟨front, last, hsteps, hnames⟩ := Path.steps_eq_concat path
  rw [hsteps] at hfollow
  obtain ⟨above, habove, hlast⟩ := follow_append.mp hfollow
  obtain ⟨⟨m, es, hdir⟩, hmove⟩ := follow_singleton.mp hlast
  cases hmove with
  | stay =>
    rw [hdir] at hfile
    cases hfile
  | up =>
    obtain ⟨m', es', hup⟩ := Entry.descend_dropLast hdir
    rw [hup] at hfile
    cases hfile
  | down hne hdot =>
    obtain ⟨_, _, _, _, hn⟩ := Entry.descend_of_descend_concat hfile
    obtain rfl : n = last := hn
    refine ⟨front.filter fun p => !p.isEmpty, above, ?_, hdot, rfl, follow_nonempty habove⟩
    rw [hnames, List.filter_append]
    simpa using hne

theorem makeDirectories_of_directory {d : Disk} {origin names place : List Text} {n : Text}
    {es : List Entry} (h : follow d.root origin names.reverse = .ok place)
    (hdir : d.root.descend place = some (.directory n es)) :
    d.makeDirectories origin names = .ok d := by
  cases names with
  | nil => rfl
  | cons last before =>
    have hmake : d.makeDirectory origin (last :: before).reverse = .error .exists := by
      rw [makeDirectory, h]
    have hthere : d.isDirectoryAt origin (last :: before).reverse = true := by
      rw [isDirectoryAt, h]
      simp [hdir, Entry.isDirectory]
    rw [makeDirectories, hmake]
    exact if_pos hthere

theorem follow_parent {d : Disk} {path n : Text} {front above : List Text}
    (hnames : Path.names path = front ++ [n]) (hdot : n ≠ ['.'])
    (h : follow d.root (d.origin path) front = .ok above) :
    ∃ names, Path.parent? path = some names ∧
      follow d.root (d.origin path) names = .ok above := by
  cases front with
  | nil => exact ⟨[], Path.parent?_of_name hnames hdot, h⟩
  | cons first rest =>
    refine ⟨_, Path.parent?_of_names hnames hdot, ?_⟩
    obtain ⟨hdir, p, hmove, hrest⟩ := follow_cons.mp h
    have hfiltered : follow d.root p (rest.filter (· != ['.'])) = .ok above := by
      refine follow_filter ?_ hrest
      intro step hstep
      exact .inr (by simpa using hstep)
    split
    · next hfirst =>
      have hdotted : first = ['.'] := by simpa using (Bool.and_eq_true_iff.mp hfirst).1
      subst hdotted
      cases hmove with
      | stay => exact hfiltered
      | down _ hne => exact absurd rfl hne
    · exact follow_cons.mpr ⟨hdir, p, hmove, hfiltered⟩

def replace (d : Disk) (place : List Text) (content : Bytes) : Disk :=
  { d with root := Entry.put (.file (place.getLast?.getD []) content) place.dropLast d.root }

theorem store_eq_replace {d : Disk} {path : Text} {place : List Text} {n : Text} {c : Bytes}
    (h : d.resolve path = .ok place) (hfile : d.root.descend place = some (.file n c))
    (content : Bytes) : d.store path content = .ok (d.replace place content) := by
  obtain ⟨front, above, hnames, hdot, rfl, hfront⟩ := resolve_file h hfile
  obtain ⟨m, es, hdir, -⟩ := Entry.descend_of_descend_concat hfile
  obtain ⟨names, hparent, hfollow⟩ := follow_parent hnames hdot hfront
  have hmake : d.makeDirectories (d.origin path) names.reverse = .ok d :=
    makeDirectories_of_directory (by rwa [List.reverse_reverse]) hdir
  rw [store, hparent]
  simp [hmake, write, h, hfile, putAt, hdir, replace]

end Disk
end CanonMark
