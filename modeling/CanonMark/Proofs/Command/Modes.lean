import CanonMark.Proofs.Command.Isolation
import Mathlib.Data.List.Nodup

/-! # Printing, listing and writing

The four ways to run the command differ in what they do with a file that could be formatted, not in
which files they turn to or which of them fail. If no file is turned to twice, a file holds what it
held at the start when its turn comes, whatever has been written before; so what one way prints can
be read off the disk that another one leaves.
-/
namespace CanonMark

namespace Disk

def documents (d : Disk) (path : Text) : List Text :=
  match d.find path with
  | .ok files => files
  | .error _ => []

/-- The bytes of the file that a path leads to. -/
def content? (d : Disk) (path : Text) : Option Bytes := (d.read path).toOption

theorem entry?_shape (d : Disk) (path : Text) :
    d.shape.entry? path = (d.entry? path).map Entry.shape := by
  unfold entry?
  rw [resolve_shape]
  cases d.resolve path with
  | error e => rfl
  | ok place => exact Entry.descend_shape d.root place

theorem isDirectory_shape (d : Disk) (path : Text) :
    d.shape.isDirectory path = d.isDirectory path := by
  rw [isDirectory, isDirectory, entry?_shape]
  cases d.entry? path <;> simp

theorem scan_shape (d : Disk) (path : Text) : d.shape.scan path = d.scan path := by
  rw [scan, scan, resolve_shape]
  cases d.resolve path with
  | error e => rfl
  | ok start =>
    have hentry : d.shape.root.descend start = (d.root.descend start).map Entry.shape :=
      Entry.descend_shape d.root start
    simp only [hentry]
    cases d.root.descend start with
    | none => rfl
    | some e =>
      cases e with
      | file n c => rfl
      | directory n es =>
        simp only [Option.map_some, Entry.shape, search_directory_shape]

theorem find_of_shape {d d' : Disk} (h : d'.shape = d.shape) (path : Text) :
    d'.find path = d.find path := by
  rw [find, find, ← isDirectory_shape d', ← scan_shape d', h, isDirectory_shape, scan_shape]

theorem exists?_of_shape {d d' : Disk} (h : d'.shape = d.shape) (path : Text) :
    d'.exists? path = d.exists? path := by
  have hentry : (d'.entry? path).map Entry.shape = (d.entry? path).map Entry.shape := by
    rw [← entry?_shape, h, entry?_shape]
  have hsome := congrArg Option.isSome hentry
  simpa [exists?] using hsome

theorem read_congr {d d' : Disk} {path : Text} (hshape : d'.shape = d.shape)
    (h : ∀ place, d.resolve path = .ok place → d.denial? place = none →
      d'.root.contentAt place = d.root.contentAt place) : d'.read path = d.read path := by
  rw [read, read, resolve_of_shape hshape]
  cases hplace : d.resolve path with
  | error e => rfl
  | ok place =>
    simp only [readAt, denial?_of_shape hshape]
    cases hdenial : d.denial? place with
    | some e => rfl
    | none =>
      have hcontent := h place hplace hdenial
      have hentry : (d'.root.descend place).map Entry.shape =
          (d.root.descend place).map Entry.shape := by
        rw [← Entry.descend_shape, ← Entry.descend_shape]
        exact congrArg (fun s => s.root.descend place) hshape
      simp only [Entry.contentAt] at hcontent
      -- equal contents do not tell a directory from nothing; equal shapes do
      cases hnew : d'.root.descend place with
      | none => cases hold : d.root.descend place <;> simp_all
      | some e' =>
        cases hold : d.root.descend place with
        | none => simp_all
        | some e => cases e <;> cases e' <;> simp_all [Entry.shape]

theorem formatDocument_congr {d d' : Disk} {path : Text} (hshape : d'.shape = d.shape)
    (h : ∀ place, d.resolve path = .ok place → d.denial? place = none →
      d'.root.contentAt place = d.root.contentAt place) (options : Layout.Options) :
    d'.formatDocument options path = d.formatDocument options path := by
  have hread : d'.readDocument path = d.readDocument path := by
    rw [readDocument, readDocument, exists?_of_shape hshape, read_congr hshape h]
  rw [formatDocument, formatDocument, hread]

theorem content?_eq (d : Disk) (path : Text) :
    d.content? path = (d.resolve path).toOption.bind d.bytesAt := by
  rw [content?, read]
  cases d.resolve path with
  | error e => rfl
  | ok place => rfl

/-- A file that is formatted has the form that it would be left with, and one that is not would be
left as it is. -/
theorem formatDocument_cases (options : Layout.Options) (d : Disk) (path : Text) :
    (∃ x t, d.formatDocument options path = .ok ⟨path, x, t⟩ ∧ d.content? path = some x ∧
      reformat options x = Utf8.encode t) ∨
    ∃ e, d.formatDocument options path = .error e ∧
      (d.content? path).map (reformat options) = d.content? path := by
  cases hformat : d.formatDocument options path with
  | ok f =>
    obtain ⟨x, t, hread, hdecoded, rfl⟩ := formatDocument_eq_ok.mp hformat
    obtain ⟨place, hplace, hbytes⟩ := readDocument_eq_ok.mp hread
    refine .inl ⟨x, t, rfl, ?_, reformat_of_ok hdecoded⟩
    rw [content?_eq, hplace]
    exact hbytes
  | error e =>
    refine .inr ⟨e, rfl, ?_⟩
    rw [content?_eq]
    cases hplace : d.resolve path with
    | error e => rfl
    | ok place =>
      change (d.bytesAt place).map _ = d.bytesAt place
      cases hbytes : d.bytesAt place with
      | none => rfl
      | some x =>
        have hread : d.readDocument path = .ok x := readDocument_eq_ok.mpr ⟨place, hplace, hbytes⟩
        cases hdecoded : formatDecoded options x with
        | error e => rw [Option.map_some, reformat_of_error hdecoded]
        | ok t =>
          have hok := formatDocument_eq_ok.mpr ⟨x, t, hread, hdecoded, rfl⟩
          rw [hformat] at hok
          cases hok

end Disk

namespace Command
namespace Occurrence

def place? (d : Disk) : Occurrence → Option (List Text)
  | .file path => (d.resolve path).toOption.filter fun place => (d.denial? place).isNone
  | .unscanned _ _ => none

theorem place?_of_resolve {d : Disk} {path : Text} {place : List Text}
    (h : d.resolve path = .ok place) : (Occurrence.file path).place? d =
      Option.guard (fun place => (d.denial? place).isNone) place := by
  rw [place?, h]
  rfl

theorem place?_file {d : Disk} {path : Text} {place : List Text} :
    (Occurrence.file path).place? d = some place ↔
      d.resolve path = .ok place ∧ d.denial? place = none := by
  rw [place?, Option.filter_eq_some_iff]
  cases d.resolve path with
  | error e => simp [Except.toOption]
  | ok q =>
    simp only [Except.toOption, Option.some.injEq, Option.isNone_iff_eq_none, Except.ok.injEq]

theorem place?_of_shape {d d' : Disk} (h : d'.shape = d.shape) (o : Occurrence) :
    o.place? d' = o.place? d := by
  cases o with
  | file path =>
    simp only [place?, Disk.resolve_of_shape h, Disk.denial?_of_shape h]
  | unscanned path e => rfl

section Leaves

variable {a : Arguments} (options : Layout.Options) {d : Disk} {o : Occurrence}

theorem leaves_file (path : Text) : (Occurrence.file path).leaves a options d =
    (Work.processFile a options ⟨d, [], [], []⟩ path).disk := by
  change _ = ((Occurrence.file path).process a options ⟨d, [], [], []⟩).disk
  rw [process_eq]

theorem leaves_of_not_write (ha : a.write = false) : o.leaves a options d = d := by
  cases o with
  | unscanned path e => rfl
  | file path =>
    rw [leaves_file]
    exact (Work.keeps_processFile ha options ⟨d, [], [], []⟩ path).disk

theorem leaves_of_no_place (h : o.place? d = none) : o.leaves a options d = d := by
  cases o with
  | unscanned path e => rfl
  | file path =>
    rw [leaves_file]
    apply Work.disk_processFile_of_unreadable
    intro x hread
    obtain ⟨place, hplace, hbytes⟩ := Disk.readDocument_eq_ok.mp hread
    have hopen := (Disk.bytesAt_eq_some.mp hbytes).1
    rw [place?_file.mpr ⟨hplace, hopen⟩] at h
    cases h

theorem leaves_of_place (ha : a.write = true) {place : List Text} (h : o.place? d = some place) :
    o.leaves a options d = d.rewrite options place := by
  cases o with
  | unscanned path e => cases h
  | file path =>
    have hplace := (place?_file.mp h).1
    exact (leaves_file options path).trans (Work.disk_processFile ha options hplace)

theorem shape_leaves (hd : d.Proper) : (o.leaves a options d).shape = d.shape := by
  cases ha : a.write with
  | false => rw [leaves_of_not_write options ha]
  | true =>
    cases hplace : o.place? d with
    | none => rw [leaves_of_no_place options hplace]
    | some place => rw [leaves_of_place options ha hplace, Disk.shape_rewrite hd]

theorem contentAt_leaves (hd : d.Proper) {q : List Text} (hq : o.place? d ≠ some q) :
    (o.leaves a options d).root.contentAt q = d.root.contentAt q := by
  cases ha : a.write with
  | false => rw [leaves_of_not_write options ha]
  | true =>
    cases hplace : o.place? d with
    | none => rw [leaves_of_no_place options hplace]
    | some place =>
      have hne : q ≠ place := fun h => hq (h ▸ hplace)
      cases o with
      | unscanned path e => cases hplace
      | file path =>
        rw [leaves_of_place options ha hplace,
          Disk.contentAt_rewrite hd options (place?_file.mp hplace).2]
        simp [hne]

end Leaves

end Occurrence

/-- A disk on which the files of occurrences still to come are as they were. -/
structure Untouched (d : Disk) (os : List Occurrence) (d' : Disk) : Prop where
  shape : d'.shape = d.shape
  content : ∀ q ∈ os.filterMap (Occurrence.place? d), d'.root.contentAt q = d.root.contentAt q

section Once

variable (a : Arguments) (options : Layout.Options) {d : Disk} {o : Occurrence}
  {os : List Occurrence}

theorem Untouched.formatDocument_eq {path : Text} {d' : Disk}
    (h : Untouched d (.file path :: os) d') :
    d'.formatDocument options path = d.formatDocument options path := by
  apply Disk.formatDocument_congr h.shape
  intro place hplace hopen
  apply h.content
  rw [List.filterMap_cons, Occurrence.place?_file.mpr ⟨hplace, hopen⟩]
  exact List.mem_cons_self

theorem Untouched.prints_eq {d' : Disk} (h : Untouched d (o :: os) d') :
    o.prints a options d' = o.prints a options d := by
  cases o with
  | file path => rw [Occurrence.prints, Occurrence.prints, h.formatDocument_eq options]
  | unscanned path e => rfl

theorem Untouched.fault?_eq {d' : Disk} (h : Untouched d (o :: os) d') :
    o.fault? options d' = o.fault? options d := by
  cases o with
  | file path => rw [Occurrence.fault?, Occurrence.fault?, h.formatDocument_eq options]
  | unscanned path e => rfl

theorem Untouched.leaves {d' : Disk} (hd : d.Proper)
    (honce : ((o :: os).filterMap (Occurrence.place? d)).Nodup) (h : Untouched d (o :: os) d') :
    Untouched d os (o.leaves a options d') := by
  have hd' := Disk.proper_of_shape h.shape.symm hd
  constructor
  · rw [Occurrence.shape_leaves options hd', h.shape]
  · intro q hq
    have hlater : q ∈ (o :: os).filterMap (Occurrence.place? d) := by
      obtain ⟨p, hp, hplace⟩ := List.mem_filterMap.mp hq
      exact List.mem_filterMap.mpr ⟨p, List.mem_cons_of_mem _ hp, hplace⟩
    -- a write now would be seen later only at a place that is met twice
    have hother : o.place? d' ≠ some q := by
      rw [Occurrence.place?_of_shape h.shape]
      intro hplace
      rw [List.filterMap_cons, hplace] at honce
      exact (List.nodup_cons.mp honce).1 hq
    rw [Occurrence.contentAt_leaves options hd' hother, h.content q hlater]

/-- Nothing that is printed or reported depends on what is written on the way. -/
theorem foldl_process_once (hd : d.Proper) (os : List Occurrence)
    (honce : (os.filterMap (Occurrence.place? d)).Nodup) {w : Work} (hw : Untouched d os w.disk) :
    (os.foldl (Occurrence.process a options) w).output =
        w.output ++ os.flatMap (Occurrence.prints a options d) ∧
      (os.foldl (Occurrence.process a options) w).diagnostics =
        w.diagnostics ++ os.filterMap (Occurrence.fault? options d) := by
  induction os generalizing w with
  | nil => simp
  | cons o os ih =>
    have hrest : (os.filterMap (Occurrence.place? d)).Nodup := by
      rw [List.filterMap_cons] at honce
      cases hplace : o.place? d with
      | none => rwa [hplace] at honce
      | some q =>
        rw [hplace] at honce
        exact (List.nodup_cons.mp honce).2
    have hstep := Occurrence.process_eq a options w o
    rw [hw.prints_eq, hw.fault?_eq] at hstep
    obtain ⟨houtput, hdiagnostics⟩ := ih hrest (w := o.process a options w)
      (by rw [hstep]; exact hw.leaves a options hd honce)
    rw [List.foldl_cons, houtput, hdiagnostics, hstep, List.filterMap_cons]
    cases o.fault? options d <;> simp

theorem shape_foldl_leaves (hd : d.Proper) (os : List Occurrence) :
    (os.foldl (Occurrence.leaves a options) d).shape = d.shape := by
  induction os generalizing d with
  | nil => rfl
  | cons o os ih =>
    have hshape := Occurrence.shape_leaves (a := a) (o := o) options hd
    rw [List.foldl_cons, ih (Disk.proper_of_shape hshape.symm hd), hshape]

theorem foldl_processPath_eq (hd : d.Proper) (paths : List Text) {w : Work}
    (hw : w.disk.shape = d.shape) : paths.foldl (Work.processPath a options) w =
      (paths.flatMap (occurrences d)).foldl (Occurrence.process a options) w := by
  induction paths generalizing w with
  | nil => rfl
  | cons path paths ih =>
    -- the files are looked for on the disk as the paths before have left it: another one, but of
    -- the same shape
    have hfound : occurrences w.disk path = occurrences d path := by
      rw [occurrences, occurrences, Disk.find_of_shape hw]
    rw [List.foldl_cons, List.flatMap_cons, List.foldl_append, processPath_eq, hfound]
    apply ih
    rw [disk_foldl_process, shape_foldl_leaves a options (Disk.proper_of_shape hw.symm hd), hw]

end Once

theorem places_occurrences {d : Disk} (hd : d.Proper) (path : Text) :
    (occurrences d path).filterMap (Occurrence.place? d) = d.visits path := by
  rw [Disk.visits, ← List.filterMap_eq_filter]
  by_cases hdirectory : d.isDirectory path = true
  · obtain ⟨start, n, es, hstart, hdir⟩ := Disk.isDirectory_iff.mp hdirectory
    rw [occurrences, Disk.find, if_pos hdirectory, Disk.scan_directory hstart hdir,
      Disk.targets_directory hstart hdir]
    cases d.search start (.directory n es) with
    | error e => rfl
    | ok found =>
      simp only [List.filterMap_map]
      apply List.filterMap_congr
      intro names hnames
      exact Occurrence.place?_of_resolve (Disk.resolve_scanned hd hstart hdir hnames).1
  · have hfound : occurrences d path = [.file path] := by
      simp [occurrences, Disk.find, hdirectory]
    rw [hfound]
    cases hstart : d.resolve path with
    | error e =>
      simp [Disk.targets_of_error hstart, Occurrence.place?, hstart, Except.toOption]
    | ok start =>
      have hother : ¬∃ n es, d.root.descend start = some (.directory n es) := by
        rintro ⟨n, es, hdir⟩
        exact hdirectory (Disk.isDirectory_iff.mpr ⟨start, n, es, hstart, hdir⟩)
      rw [Disk.targets_other hstart hother, List.filterMap_cons, List.filterMap_cons,
        Occurrence.place?_of_resolve hstart]
      rfl

theorem flatMap_filter {α β : Type} (keep : α → Bool) (f : α → List β) (xs : List α) :
    (xs.filter keep).flatMap f = xs.flatMap fun x => if keep x then f x else [] := by
  induction xs with
  | nil => rfl
  | cons x xs ih =>
    by_cases hx : keep x = true <;> simp [hx, ih]

theorem mem_documents {d : Disk} {paths : List Text} {path : Text} :
    path ∈ paths.flatMap d.documents ↔
      Occurrence.file path ∈ paths.flatMap (occurrences d) := by
  simp only [List.mem_flatMap, Disk.documents, occurrences]
  refine exists_congr fun p => and_congr_right fun _ => ?_
  cases d.find p <;> simp

theorem flatMap_occurrences {β : Type} {g : Occurrence → List β}
    (hg : ∀ path e, g (.unscanned path e) = []) (d : Disk) (paths : List Text) :
    (paths.flatMap (occurrences d)).flatMap g =
      (paths.flatMap d.documents).flatMap fun path => g (.file path) := by
  rw [List.flatMap_assoc, List.flatMap_assoc]
  refine List.flatMap_congr fun path _ => ?_
  rw [occurrences, Disk.documents]
  cases d.find path with
  | ok files => simp [List.flatMap_map]
  | error e => simp [hg]

theorem diagnostic_of_fault? {options : Layout.Options} {d : Disk} {path : Text}
    {diagnostic : Diagnostic} (h : (Occurrence.file path).fault? options d = some diagnostic) :
    ∃ e, diagnostic = .file path e := by
  rw [Occurrence.fault?] at h
  split at h
  · cases h
  · next e _ => exact ⟨e, (Option.some.inj h).symm⟩

theorem fault?_eq_file {options : Layout.Options} {d : Disk} {o : Occurrence} {path : Text}
    {e : FileError} (h : o.fault? options d = some (.file path e)) : o = .file path := by
  cases o with
  | unscanned p cause => cases h
  | file p =>
    obtain ⟨cause, heq⟩ := diagnostic_of_fault? h
    cases heq
    rfl

def Arguments.flagged (a : Arguments) (write list : Bool) : Arguments :=
  { a with write := write, list := list }

def Outcome.blames (out : Outcome) (path : Text) : Bool :=
  out.diagnostics.any fun
    | .file p _ => p == path
    | _ => false

theorem prints_of_list {a : Arguments} (ha : a.list = true) (options : Layout.Options) (d : Disk)
    (path : Text) : (Occurrence.file path).prints a options d =
      if d.content? path ≠ (d.content? path).map (reformat options) then
        Utf8.encode (path ++ ['\n'])
      else [] := by
  rcases Disk.formatDocument_cases options d path with
    ⟨x, t, hformat, hcontent, hform⟩ | ⟨e, hformat, hsame⟩
  · simp only [Occurrence.prints, hformat, ha, hcontent, Option.map_some, hform,
      Formatted.changed]
    by_cases hx : x = Utf8.encode t <;> simp [hx]
  · simp [Occurrence.prints, hformat, hsame]

theorem prints_of_plain {a : Arguments} (hwrite : a.write = false) (hlist : a.list = false)
    (options : Layout.Options) (d : Disk) (path : Text) :
    (Occurrence.file path).prints a options d =
      if (Occurrence.file path).fault? options d = none then
        ((d.content? path).map (reformat options)).getD []
      else [] := by
  rcases Disk.formatDocument_cases options d path with
    ⟨x, t, hformat, hcontent, hform⟩ | ⟨e, hformat, -⟩
  · simp [Occurrence.prints, Occurrence.fault?, hformat, hwrite, hlist, hcontent, hform]
  · simp [Occurrence.prints, Occurrence.fault?, hformat]

section Run

variable {d : Disk} (hd : d.Proper) {a : Arguments} (options : Layout.Options)
  (honce : (a.paths.flatMap d.visits).Nodup)
include hd honce

theorem formatPaths_once :
    let os := a.paths.flatMap (occurrences d)
    (formatPaths a options d).output = os.flatMap (Occurrence.prints a options d) ∧
    (formatPaths a options d).diagnostics = os.filterMap (Occurrence.fault? options d) := by
  intro os
  have hplaces : os.filterMap (Occurrence.place? d) = a.paths.flatMap d.visits := by
    rw [List.filterMap_flatMap]
    exact List.flatMap_congr fun path _ => places_occurrences hd path
  have hfold := foldl_processPath_eq a options hd a.paths (w := ⟨d, [], [], []⟩) rfl
  have hrun := foldl_process_once a options hd os (by rwa [hplaces]) (w := ⟨d, [], [], []⟩)
    ⟨rfl, fun q _ => rfl⟩
  rw [← hfold] at hrun
  exact hrun

theorem output_formatPaths : (formatPaths a options d).output =
    (a.paths.flatMap d.documents).flatMap fun path =>
      (Occurrence.file path).prints a options d := by
  rw [(formatPaths_once hd options honce).1]
  exact flatMap_occurrences (fun _ _ => rfl) d a.paths

theorem blames_formatPaths {path : Text} (hpath : path ∈ a.paths.flatMap d.documents) :
    (formatPaths a options d).blames path = true ↔
      (Occurrence.file path).fault? options d ≠ none := by
  rw [Outcome.blames, (formatPaths_once hd options honce).2, List.any_eq_true]
  constructor
  · rintro ⟨diagnostic, hmem, hblame⟩
    obtain ⟨o, -, hfault⟩ := List.mem_filterMap.mp hmem
    cases diagnostic with
    | file p e =>
      obtain rfl : p = path := eq_of_beq hblame
      rw [← fault?_eq_file hfault, hfault]
      exact Option.some_ne_none _
    | _ => cases hblame
  · intro hfault
    obtain ⟨diagnostic, hsome⟩ := Option.ne_none_iff_exists'.mp hfault
    refine ⟨diagnostic, List.mem_filterMap.mpr ⟨_, mem_documents.mp hpath, hsome⟩, ?_⟩
    obtain ⟨e, rfl⟩ := diagnostic_of_fault? hsome
    exact beq_self_eq_true path

theorem content?_of_write (ha : a.write = true) {path : Text}
    (hpath : path ∈ a.paths.flatMap d.documents) :
    (formatPaths a options d).disk.content? path =
      (d.content? path).map (reformat options) := by
  have hdisk := disk_formatPaths hd a options
  have hshape := Disk.shape_foldl_rewrite hd options (places d a)
  rw [← hdisk] at hshape
  rw [Disk.content?_eq, Disk.content?_eq, Disk.resolve_of_shape hshape]
  cases hplace : d.resolve path with
  | error e => rfl
  | ok place =>
    change (formatPaths a options d).disk.bytesAt place = (d.bytesAt place).map (reformat options)
    cases hdenial : d.denial? place with
    | some e =>
      rw [Disk.bytesAt_of_denial hdenial,
        Disk.bytesAt_of_denial ((Disk.denial?_of_shape hshape place).trans hdenial)]
      rfl
    | none =>
      have hvisited : place ∈ a.paths.flatMap d.visits := by
        obtain ⟨p, hp, hfile⟩ := List.mem_flatMap.mp (mem_documents.mp hpath)
        refine List.mem_flatMap.mpr ⟨p, hp, ?_⟩
        rw [← places_occurrences hd]
        exact List.mem_filterMap.mpr ⟨_, hfile, Occurrence.place?_file.mpr ⟨hplace, hdenial⟩⟩
      have hcount : (places d a).count place = 1 := by
        rw [places, if_pos ha]
        exact List.count_eq_one_of_mem honce hvisited
      have hopen : ∀ q ∈ places d a, d.denial? q = none := fun q hq => (mem_places hq).1
      have hcontent := Disk.contentAt_foldl_rewrite hd options (places d a) hopen place
      rw [← hdisk, hcount, Function.iterate_one] at hcontent
      rw [Disk.bytesAt_eq hdenial,
        Disk.bytesAt_eq ((Disk.denial?_of_shape hshape place).trans hdenial), hcontent]

theorem diagnostics_flagged (write list : Bool) :
    (formatPaths (a.flagged write list) options d).diagnostics =
      (formatPaths a options d).diagnostics := by
  have hflagged := (formatPaths_once (a := a.flagged write list) hd options honce).2
  exact hflagged.trans (formatPaths_once hd options honce).2.symm

theorem output_listed (write : Bool) :
    let written := formatPaths (a.flagged true false) options d
    (formatPaths (a.flagged write true) options d).output =
      ((a.paths.flatMap d.documents).filter fun p =>
        d.content? p ≠ written.disk.content? p).flatMap fun p => Utf8.encode (p ++ ['\n']) := by
  intro written
  have houtput := output_formatPaths (a := a.flagged write true) hd options honce
  rw [houtput, flatMap_filter]
  apply List.flatMap_congr
  intro p hp
  have hwritten : written.disk.content? p = (d.content? p).map (reformat options) :=
    content?_of_write (a := a.flagged true false) hd options honce rfl hp
  rw [prints_of_list rfl, hwritten]
  simp

theorem output_plain :
    let written := formatPaths (a.flagged true false) options d
    (formatPaths (a.flagged false false) options d).output =
      ((a.paths.flatMap d.documents).filter fun p => !written.blames p).flatMap
        fun p => (written.disk.content? p).getD [] := by
  intro written
  have houtput := output_formatPaths (a := a.flagged false false) hd options honce
  rw [houtput, flatMap_filter]
  apply List.flatMap_congr
  intro p hp
  have hwritten : written.disk.content? p = (d.content? p).map (reformat options) :=
    content?_of_write (a := a.flagged true false) hd options honce rfl hp
  have hblames : written.blames p = true ↔ (Occurrence.file p).fault? options d ≠ none :=
    blames_formatPaths (a := a.flagged true false) hd options honce hp
  rw [prints_of_plain rfl rfl, hwritten]
  by_cases hfault : (Occurrence.file p).fault? options d = none
  · have hgood : written.blames p = false := by
      rw [← Bool.not_eq_true, hblames]
      exact not_not_intro hfault
    simp [hfault, hgood]
  · simp [hfault, hblames.mpr hfault]

end Run

theorem status_formatPaths (a : Arguments) (options : Layout.Options) (d : Disk) :
    (formatPaths a options d).status =
      if (formatPaths a options d).diagnostics.isEmpty then 0 else 1 := rfl

theorem run_of_config_error {env : Environment} {d : Disk} {a : Arguments} {e : ConfigError}
    (hpaths : a.paths ≠ []) (h : layoutOptions env d a = .error e) (stdin : Bytes) :
    run env d stdin (.run a) = failure d (.config e) := by
  have hsome : a.paths.isEmpty = false := by simpa using hpaths
  simp [run, runArguments, hsome, h]

theorem run_flagged {env : Environment} {d : Disk} {a : Arguments} {options : Layout.Options}
    (hpaths : a.paths ≠ []) (h : layoutOptions env d a = .ok options) (stdin : Bytes)
    (write list : Bool) : run env d stdin (.run (a.flagged write list)) =
      formatPaths (a.flagged write list) options d :=
  run_eq_formatPaths (a := a.flagged write list) hpaths h stdin

/-- The four ways to run the command report the same and end with the same status. Both that list
print the paths of the files that a run with `-w` changes, both that write leave the same disk, and
without a flag the bytes are printed that a run with `-w` leaves. -/
theorem output_modes_agree (env : Environment) (d : Disk) (hd : d.Proper) (stdin : Bytes)
    (a : Arguments) (hpaths : a.paths ≠ []) (honce : (a.paths.flatMap d.visits).Nodup) :
    let outcome := fun write list => run env d stdin (.run (a.flagged write list))
    let plain := outcome false false
    let listed := outcome false true
    let written := outcome true false
    let both := outcome true true
    let files := a.paths.flatMap d.documents
    (∀ write list, (outcome write list).status = plain.status ∧
      (outcome write list).diagnostics = plain.diagnostics) ∧
    both.output = listed.output ∧
    listed.output = (files.filter fun p => d.content? p ≠ written.disk.content? p).flatMap
      (fun p => Utf8.encode (p ++ ['\n'])) ∧
    both.disk = written.disk ∧
    (∀ e, layoutOptions env d a = .error e → plain.output = []) ∧
    ∀ options, layoutOptions env d a = .ok options →
      plain.output = (files.filter fun p => !written.blames p).flatMap
        fun p => (written.disk.content? p).getD [] := by
  cases hoptions : layoutOptions env d a with
  | error e =>
    have houtcome : ∀ write list,
        run env d stdin (.run (a.flagged write list)) = failure d (.config e) := by
      intro write list
      exact run_of_config_error (a := a.flagged write list) hpaths hoptions stdin
    simp [houtcome, failure]
  | ok options =>
    have houtcome := run_flagged hpaths hoptions stdin
    have hdiagnostics := diagnostics_flagged hd options honce
    have hlisted := output_listed hd options honce
    simp only [houtcome]
    refine ⟨?_, ?_, hlisted false, ?_, ?_, ?_⟩
    · intro write list
      have hsame := (hdiagnostics write list).trans (hdiagnostics false false).symm
      constructor
      · rw [status_formatPaths, status_formatPaths, hsame]
      · exact hsame
    · rw [hlisted true, hlisted false]
    · rw [disk_formatPaths hd, disk_formatPaths hd]
      rfl
    · intro e h
      cases h
    · intro other h
      cases h
      exact output_plain hd options honce

/-- A directory, a missing file twice, and the one file of the directory that a scan passes over. -/
def differing : Arguments :=
  ⟨["docs".toList, "gone.md".toList, "gone.md".toList, "docs/list.txt".toList], none, false, false,
    none⟩

theorem output_modes_agree_docs :
    docs.Proper ∧ differing.paths ≠ [] ∧ (differing.paths.flatMap docs.visits).Nodup ∧
    let outcome := fun write list =>
      run ⟨fun _ => none, none⟩ docs [] (.run (differing.flagged write list))
    (outcome false true).output = Utf8.encode "docs/list.md\ndocs/list.txt\n".toList ∧
    (outcome true true).output = (outcome false true).output ∧
    (outcome true true).disk = (outcome true false).disk ∧
    (outcome false false).output = Utf8.encode "- x\n- x\n".toList ∧
    ∀ write list, (outcome write list).status = 1 := by
  have hd : docs.Proper := by
    refine ⟨.directory _ (by decide) (by decide) ?_, rfl⟩
    rw [List.forall_mem_singleton]
    refine .directory _ (by decide) (by decide) ?_
    simp [Entry.Proper.file]
  -- the scan is evaluated apart from the files that it finds
  have hvisits : differing.paths.flatMap docs.visits = [["docs".toList, "bad.md".toList],
      ["docs".toList, "list.md".toList], ["docs".toList, "list.txt".toList]] := by
    rw [Disk.visits_of_no_denials (d := docs) rfl]
    cbv
  have hfound : differing.paths.flatMap (occurrences docs) =
      [.file "docs/bad.md".toList, .file "docs/list.md".toList, .file "gone.md".toList,
        .file "gone.md".toList, .file "docs/list.txt".toList] := by cbv
  have hfiles : differing.paths.flatMap docs.documents =
      ["docs/bad.md".toList, "docs/list.md".toList, "gone.md".toList, "gone.md".toList,
        "docs/list.txt".toList] := by cbv
  have honce : (differing.paths.flatMap docs.visits).Nodup := by
    rw [hvisits]
    decide
  have hoptions : layoutOptions ⟨fun _ => none, none⟩ docs differing = .ok ⟨80⟩ := by rfl
  have houtcome := run_flagged (a := differing) (by decide) hoptions []
  obtain ⟨hsame, hboth, hlisted, hdisk, -, hplain⟩ :=
    output_modes_agree ⟨fun _ => none, none⟩ docs hd [] differing (by decide) honce
  have hbytes := hplain ⟨80⟩ hoptions
  have hleft : (formatPaths (differing.flagged true false) ⟨80⟩ docs).disk =
      (differing.paths.flatMap docs.visits).foldl (Disk.rewrite ⟨80⟩) docs :=
    disk_formatPaths hd _ ⟨80⟩
  have hfaults : (formatPaths (differing.flagged true false) ⟨80⟩ docs).diagnostics =
      (differing.paths.flatMap (occurrences docs)).filterMap
        (Occurrence.fault? ⟨80⟩ docs) :=
    (formatPaths_once (a := differing.flagged true false) hd ⟨80⟩ honce).2
  rw [hfound] at hfaults
  simp only [houtcome] at hsame hboth hdisk ⊢
  simp only [houtcome, hfiles, hleft, hvisits, Outcome.blames, hfaults] at hlisted hbytes
  refine ⟨hd, by decide, honce, ?_, hboth, hdisk, ?_, ?_⟩
  · rw [hlisted]
    decide +kernel
  · rw [hbytes]
    decide +kernel
  · intro write list
    rw [(hsame write list).1, ← (hsame true false).1, status_formatPaths, hfaults]
    decide +kernel

end Command
end CanonMark
