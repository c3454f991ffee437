import CanonMark.Command.Run
import CanonMark.Proofs.Files.Paths
import Mathlib.Data.List.Permutation
import Mathlib.Logic.Relation
import Mathlib.Logic.Function.Iterate

/-! # What a run writes

A run with `-w` visits places, one after the other, and at each of them replaces the content of the
file by its canonical form if there is one and it differs. Nothing else on the disk changes: no
entry comes or goes, and the places are those of the disk as it was at the start, whatever has been
written meanwhile. The log of a run tells how its disk came about: each entry begins with the bytes
that the file held at that moment.
-/
namespace CanonMark

def reformat (options : Layout.Options) (x : Bytes) : Bytes :=
  match formatBytes options x with
  | .ok y => y
  | .error _ => x

theorem reformat_of_ok {options : Layout.Options} {x : Bytes} {t : Text}
    (h : formatDecoded options x = .ok t) : reformat options x = Utf8.encode t := by
  simp [reformat, formatBytes, h]

theorem reformat_of_error {options : Layout.Options} {x : Bytes} {e : LayoutError}
    (h : formatDecoded options x = .error e) : reformat options x = x := by
  simp [reformat, formatBytes, h]

namespace Disk

/-- What every disk is: a directory, with no name twice in it or below. -/
structure Proper (d : Disk) : Prop where
  names : d.root.Proper
  top : d.root.isDirectory = true

theorem proper_of_shape {d d' : Disk} (h : d.shape = d'.shape) (hd : d.Proper) : d'.Proper := by
  have hroot : d.root.shape = d'.root.shape := congrArg Disk.root h
  refine ⟨Entry.proper_of_shape hroot hd.names, ?_⟩
  rw [← Entry.isDirectory_shape, ← hroot, Entry.isDirectory_shape]
  exact hd.top

/-- The bytes of the file at a place, if the process can read it. -/
def bytesAt (d : Disk) (place : List Text) : Option Bytes := (d.readAt place).toOption

def rewrite (options : Layout.Options) (d : Disk) (place : List Text) : Disk :=
  match d.bytesAt place with
  | none => d
  | some x => if reformat options x = x then d else d.replace place (reformat options x)

/-- The places that a run turns to for a path: those of the files that a scan finds, or its own. -/
def targets (d : Disk) (path : Text) : List (List Text) :=
  match d.resolve path with
  | .error _ => []
  | .ok start =>
    match d.root.descend start with
    | some (.directory n entries) =>
      match d.search start (.directory n entries) with
      | .error _ => []
      | .ok found => (found.mergeSort Path.lessEq).map (start ++ ·)
    | _ => [start]

def visits (d : Disk) (path : Text) : List (List Text) :=
  (d.targets path).filter fun place => (d.denial? place).isNone

theorem visits_of_no_denials {d : Disk} (h : d.process.denials = []) : d.visits = d.targets := by
  funext path
  rw [visits, List.filter_eq_self]
  intro place _
  simp [denial?, h]

theorem bytesAt_of_denial {d : Disk} {place : List Text} {e : OsError}
    (h : d.denial? place = some e) : d.bytesAt place = none := by
  rw [bytesAt, readAt, h]
  rfl

theorem bytesAt_eq {d : Disk} {place : List Text} (h : d.denial? place = none) :
    d.bytesAt place = d.root.contentAt place := by
  rw [bytesAt, readAt, h, Entry.contentAt]
  cases d.root.descend place with
  | none => rfl
  | some e => cases e <;> rfl

theorem bytesAt_eq_some {d : Disk} {place : List Text} {x : Bytes} :
    d.bytesAt place = some x ↔ d.denial? place = none ∧ d.root.contentAt place = some x := by
  cases hdenial : d.denial? place with
  | none => simp [bytesAt_eq hdenial]
  | some e => simp [bytesAt_of_denial hdenial]

theorem contentAt_of_bytesAt {d : Disk} {place : List Text} {x : Bytes}
    (h : d.bytesAt place = some x) : d.root.contentAt place = some x :=
  (bytesAt_eq_some.mp h).2

theorem rewrite_of_none {d : Disk} {place : List Text} (options : Layout.Options)
    (h : d.bytesAt place = none) : d.rewrite options place = d := by
  rw [rewrite, h]

theorem rewrite_of_some {d : Disk} {place : List Text} {x : Bytes} (options : Layout.Options)
    (h : d.bytesAt place = some x) : d.rewrite options place =
      if reformat options x = x then d else d.replace place (reformat options x) := by
  rw [rewrite, h]

theorem replaceable_of_contentAt {d : Disk} {place : List Text} {x : Bytes} (hd : d.Proper)
    (h : d.root.contentAt place = some x) :
    ∃ above name, place = above ++ [name] ∧ d.root.Replaceable above name x := by
  obtain ⟨name, hfile⟩ := Entry.contentAt_eq_some.mp h
  rcases List.eq_nil_or_concat' place with rfl | ⟨above, last, rfl⟩
  · obtain hroot : d.root = .file name x := Option.some.inj hfile
    have htop := hd.top
    rw [hroot] at htop
    cases htop
  · obtain ⟨_, _, _, _, hname⟩ := Entry.descend_of_descend_concat hfile
    obtain rfl : name = last := hname
    exact ⟨above, name, rfl, hd.names, hfile⟩

theorem shape_replace {d : Disk} {place : List Text} {x : Bytes} (hd : d.Proper)
    (h : d.root.contentAt place = some x) (content : Bytes) :
    (d.replace place content).shape = d.shape := by
  obtain ⟨above, name, rfl, hreplace⟩ := replaceable_of_contentAt hd h
  simp [replace, shape, Entry.shape_put hreplace]

theorem contentAt_replace {d : Disk} {place : List Text} {x : Bytes} (hd : d.Proper)
    (h : d.root.contentAt place = some x) (content : Bytes) (q : List Text) :
    (d.replace place content).root.contentAt q =
      if q = place then some content else d.root.contentAt q := by
  obtain ⟨above, name, rfl, hreplace⟩ := replaceable_of_contentAt hd h
  simp [replace, Entry.contentAt_put hreplace]

theorem shape_rewrite {d : Disk} (hd : d.Proper) (options : Layout.Options)
    (place : List Text) : (d.rewrite options place).shape = d.shape := by
  cases hx : d.bytesAt place with
  | none => rw [rewrite_of_none options hx]
  | some x =>
    rw [rewrite_of_some options hx]
    split
    · rfl
    · exact shape_replace hd (contentAt_of_bytesAt hx) _

theorem contentAt_rewrite {d : Disk} (hd : d.Proper) (options : Layout.Options)
    {place : List Text} (hopen : d.denial? place = none) (q : List Text) :
    (d.rewrite options place).root.contentAt q =
      (d.root.contentAt q).map fun x => if q = place then reformat options x else x := by
  have hbytes := bytesAt_eq hopen
  cases hx : d.root.contentAt place with
  | none =>
    rw [rewrite_of_none options (hbytes.trans hx)]
    by_cases hq : q = place
    · simp [hq, hx]
    · simp [hq]
  | some x =>
    rw [rewrite_of_some options (hbytes.trans hx)]
    by_cases hq : q = place
    · subst hq
      by_cases hsame : reformat options x = x
      · simp [hsame, hx]
      · simp [hsame, contentAt_replace hd hx, hx]
    · by_cases hsame : reformat options x = x
      · simp [hsame, hq]
      · simp [hsame, contentAt_replace hd hx, hq]

section Fold

variable {d : Disk} (hd : d.Proper) (options : Layout.Options) (places : List (List Text))
include hd

theorem shape_foldl_rewrite : (places.foldl (rewrite options) d).shape = d.shape := by
  induction places generalizing d with
  | nil => rfl
  | cons place places ih =>
    have hshape := shape_rewrite hd options place
    exact (ih (proper_of_shape hshape.symm hd)).trans hshape

theorem contentAt_foldl_rewrite (hopen : ∀ place ∈ places, d.denial? place = none)
    (q : List Text) : (places.foldl (rewrite options) d).root.contentAt q =
      (d.root.contentAt q).map (reformat options)^[places.count q] := by
  induction places generalizing d with
  | nil => simp
  | cons place places ih =>
    rw [List.forall_mem_cons] at hopen
    have hshape := shape_rewrite hd options place
    have hrest : ∀ p ∈ places, (d.rewrite options place).denial? p = none := by
      intro p hp
      rw [denial?_of_shape hshape]
      exact hopen.2 p hp
    rw [List.foldl_cons, ih (proper_of_shape hshape.symm hd) hrest, contentAt_rewrite hd _ hopen.1]
    by_cases hq : q = place
    · subst hq
      simp [Function.comp_def]
    · have hcount : (place :: places).count q = places.count q :=
        List.count_cons_of_ne (Ne.symm hq)
      simp [hq, hcount]

theorem foldl_rewrite_filter :
    (places.filter fun place => (d.denial? place).isNone).foldl (rewrite options) d =
      places.foldl (rewrite options) d := by
  induction places generalizing d with
  | nil => rfl
  | cons place places ih =>
    cases hdenial : d.denial? place with
    | some e =>
      rw [List.filter_cons_of_neg (by simp [hdenial]), List.foldl_cons,
        rewrite_of_none options (bytesAt_of_denial hdenial), ih hd]
    | none =>
      have hshape := shape_rewrite hd options place
      have hsame : (fun p => (d.denial? p).isNone) =
          fun p => ((d.rewrite options place).denial? p).isNone := by
        funext p
        rw [denial?_of_shape hshape]
      rw [List.filter_cons_of_pos (by simp [hdenial]), List.foldl_cons, List.foldl_cons, hsame,
        ih (proper_of_shape hshape.symm hd)]

end Fold

theorem targets_shape (d : Disk) (path : Text) : d.shape.targets path = d.targets path := by
  rw [targets, targets, resolve_shape]
  cases d.resolve path with
  | error e => rfl
  | ok start =>
    have hentry : d.shape.root.descend start = (d.root.descend start).map Entry.shape :=
      Entry.descend_shape d.root start
    simp only [hentry]
    cases d.root.descend start with
    | none => rfl
    | some e =>
      cases e with
      | file n c => rfl
      | directory n es =>
        simp only [Option.map_some, Entry.shape, search_directory_shape]

theorem targets_of_error {d : Disk} {path : Text} {e : OsError} (h : d.resolve path = .error e) :
    d.targets path = [] := by
  rw [targets, h]

theorem targets_directory {d : Disk} {path n : Text} {start : List Text} {es : List Entry}
    (h : d.resolve path = .ok start) (hdir : d.root.descend start = some (.directory n es)) :
    d.targets path = match d.search start (.directory n es) with
      | .error _ => []
      | .ok _ => (scanEntries es).map (start ++ ·) := by
  simp only [targets, h, hdir]
  cases hfound : d.search start (.directory n es) with
  | error e => rfl
  | ok found =>
    rw [searchAmong_eq_ok (search_directory_eq_ok.mp hfound).2]
    rfl

theorem targets_other {d : Disk} {path : Text} {start : List Text}
    (h : d.resolve path = .ok start)
    (hother : ¬∃ n es, d.root.descend start = some (.directory n es)) :
    d.targets path = [start] := by
  simp only [targets, h]
  split
  · next n es hdir => exact absurd ⟨n, es, hdir⟩ hother
  · rfl

theorem resolve_scanned {d : Disk} (hd : d.Proper) {path : Text} {start names : List Text}
    {n : Text} {es : List Entry} (h : d.resolve path = .ok start)
    (hdir : d.root.descend start = some (.directory n es)) (hnames : names ∈ scanEntries es) :
    d.resolve (names.foldl Path.join path) = .ok (start ++ names) ∧
      ∃ above name, names = above ++ [name] ∧ Path.isMarkdownName name = true := by
  have hproper := Entry.proper_descend hd.names hdir
  obtain ⟨above, name, content, hconcat, hmarkdown, hfile⟩ :=
    Entry.descend_of_mem_markdownFilesIn hproper (List.mem_mergeSort.mp hnames)
  refine ⟨resolve_foldl_join h (Entry.isName_of_descend hproper hfile) ?_,
    above, name, hconcat, hmarkdown⟩
  rw [Entry.descend_append, hdir]
  exact Option.isSome_iff_exists.mpr ⟨_, hfile⟩

theorem mem_visits {d : Disk} {path : Text} {place : List Text} :
    place ∈ d.visits path ↔ place ∈ d.targets path ∧ d.denial? place = none := by
  simp [visits]

theorem isDirectory_iff {d : Disk} {path : Text} : d.isDirectory path = true ↔
    ∃ start n es, d.resolve path = .ok start ∧ d.root.descend start = some (.directory n es) := by
  rw [isDirectory, entry?]
  cases d.resolve path with
  | error e => simp
  | ok start =>
    cases hentry : d.root.descend start with
    | none => simp [hentry]
    | some e => cases e <;> simp [Entry.isDirectory, hentry]

theorem readDocument_eq_ok {d : Disk} {path : Text} {x : Bytes} :
    d.readDocument path = .ok x ↔
      ∃ place, d.resolve path = .ok place ∧ d.bytesAt place = some x := by
  rw [readDocument, exists?, Disk.entry?, read]
  cases d.resolve path with
  | error e => simp
  | ok place =>
    cases hentry : d.root.descend place with
    | none =>
      have hnone : d.bytesAt place ≠ some x := by
        intro hx
        have hcontent := contentAt_of_bytesAt hx
        rw [Entry.contentAt, hentry] at hcontent
        cases hcontent
      simp [hentry, hnone]
    | some e =>
      simp only [hentry, bytesAt]
      cases hread : d.readAt place <;> simp [hread, Except.toOption]

theorem formatDocument_eq_ok {d : Disk} {options : Layout.Options} {path : Text} {f : Formatted} :
    d.formatDocument options path = .ok f ↔ ∃ x t, d.readDocument path = .ok x ∧
      formatDecoded options x = .ok t ∧ f = ⟨path, x, t⟩ := by
  rw [formatDocument]
  cases d.readDocument path with
  | error e => simp
  | ok x =>
    cases hformat : formatDecoded options x with
    | error e => simp [hformat]
    | ok t => simp [hformat, eq_comm]

theorem formatDocument_of_bytesAt {d : Disk} {options : Layout.Options} {path : Text}
    {place : List Text} {x : Bytes} (h : d.resolve path = .ok place)
    (hx : d.bytesAt place = some x) : d.formatDocument options path =
      match formatDecoded options x with
      | .ok t => .ok ⟨path, x, t⟩
      | .error e => .error (.layout e) := by
  have hread : d.readDocument path = .ok x := readDocument_eq_ok.mpr ⟨place, h, hx⟩
  cases hform : formatDecoded options x <;> simp [formatDocument, hread, hform]

theorem storeDocument_of_bytesAt {d : Disk} {path : Text} {place : List Text} {x : Bytes}
    (h : d.resolve path = .ok place) (hx : d.bytesAt place = some x) (t : Text) :
    d.storeDocument path t = .ok (d.replace place (Utf8.encode t)) := by
  obtain ⟨n, hfile⟩ := Entry.contentAt_eq_some.mp (contentAt_of_bytesAt hx)
  rw [storeDocument, store_eq_replace h hfile]

end Disk

namespace Command
namespace Work

variable {a : Arguments}

theorem disk_store (w : Work) (f : Formatted) : (w.store f).disk =
    match w.disk.storeDocument f.path f.canonical with
    | .ok disk => disk
    | .error _ => w.disk := by
  rw [store]
  cases w.disk.storeDocument f.path f.canonical <;> rfl

theorem disk_deliver (w : Work) (f : Formatted) : (w.deliver a f).disk =
    if a.write = true ∧ f.changed = true then (w.store f).disk else w.disk := by
  rw [deliver]
  cases a.write <;> cases a.list <;> cases f.changed <;> simp [disk_store, print]

theorem writes_store (w : Work) (f : Formatted) : (w.store f).writes =
    match w.disk.storeDocument f.path f.canonical with
    | .ok _ => w.writes ++ [⟨f.path, f.source, Utf8.encode f.canonical⟩]
    | .error _ => w.writes := by
  rw [store]
  cases w.disk.storeDocument f.path f.canonical <;> rfl

theorem writes_deliver (w : Work) (f : Formatted) : (w.deliver a f).writes =
    if a.write = true ∧ f.changed = true then (w.store f).writes else w.writes := by
  rw [deliver]
  cases a.write <;> cases a.list <;> cases f.changed <;> simp [writes_store, print]

structure Keeps (w w' : Work) : Prop where
  disk : w'.disk = w.disk
  writes : w'.writes = w.writes

theorem keeps_foldl {α : Type} {f : Work → α → Work} (hf : ∀ w x, Keeps w (f w x)) (xs : List α)
    (w : Work) : Keeps w (xs.foldl f w) := by
  induction xs generalizing w with
  | nil => exact ⟨rfl, rfl⟩
  | cons x xs ih =>
    have hstep := hf w x
    have hrest := ih (f w x)
    exact ⟨hrest.disk.trans hstep.disk, hrest.writes.trans hstep.writes⟩

theorem keeps_processFile (ha : a.write = false) (options : Layout.Options) (w : Work)
    (path : Text) : Keeps w (w.processFile a options path) := by
  rw [processFile]
  cases w.disk.formatDocument options path with
  | ok f => exact ⟨by simp [disk_deliver, ha], by simp [writes_deliver, ha]⟩
  | error e => exact ⟨rfl, rfl⟩

theorem keeps_processPath (ha : a.write = false) (options : Layout.Options) (w : Work)
    (path : Text) : Keeps w (w.processPath a options path) := by
  rw [processPath]
  split
  · split
    · exact keeps_foldl (keeps_processFile ha options) _ w
    · exact ⟨rfl, rfl⟩
  · exact keeps_processFile ha options w path

theorem disk_processFile_of_unreadable (options : Layout.Options) {w : Work} {path : Text}
    (h : ∀ x, w.disk.readDocument path ≠ .ok x) :
    (w.processFile a options path).disk = w.disk := by
  rw [processFile, Disk.formatDocument]
  cases hread : w.disk.readDocument path with
  | ok x => exact absurd hread (h x)
  | error e => rfl

theorem disk_processFile (ha : a.write = true) (options : Layout.Options) {w : Work}
    {path : Text} {place : List Text} (h : w.disk.resolve path = .ok place) :
    (w.processFile a options path).disk = w.disk.rewrite options place := by
  cases hx : w.disk.bytesAt place with
  | none =>
    rw [Disk.rewrite_of_none options hx]
    refine disk_processFile_of_unreadable options ?_
    intro x hread
    obtain ⟨q, hq, hbytes⟩ := Disk.readDocument_eq_ok.mp hread
    obtain rfl : place = q := Except.ok.inj (h.symm.trans hq)
    rw [hx] at hbytes
    cases hbytes
  | some x =>
    rw [Disk.rewrite_of_some options hx, processFile, Disk.formatDocument_of_bytesAt h hx]
    cases hformat : formatDecoded options x with
    | error e =>
      rw [if_pos (reformat_of_error hformat)]
      rfl
    | ok t =>
      simp only [disk_deliver, disk_store, Disk.storeDocument_of_bytesAt h hx,
        reformat_of_ok hformat, Formatted.changed]
      by_cases hsame : Utf8.encode t = x
      · simp [hsame]
      · simp [ha, hsame, Ne.symm hsame]

/-- Files are handled place by place: a write does not change where the next path leads. -/
theorem disk_foldl_processFile (ha : a.write = true) (options : Layout.Options) {d : Disk}
    (hd : d.Proper) {α : Type} {path : α → Text} {place : α → List Text} {xs : List α}
    (hxs : ∀ x ∈ xs, d.resolve (path x) = .ok (place x)) {w : Work} (hw : w.disk.shape = d.shape) :
    ((xs.map path).foldl (processFile a options) w).disk =
      (xs.map place).foldl (Disk.rewrite options) w.disk := by
  induction xs generalizing w with
  | nil => rfl
  | cons x xs ih =>
    have hresolve : w.disk.resolve (path x) = .ok (place x) := by
      rw [Disk.resolve_of_shape hw]
      exact hxs x List.mem_cons_self
    have hstep := disk_processFile ha options hresolve
    have hshape : (w.processFile a options (path x)).disk.shape = d.shape := by
      rw [hstep, Disk.shape_rewrite (Disk.proper_of_shape hw.symm hd), hw]
    rw [List.map_cons, List.map_cons, List.foldl_cons, List.foldl_cons, ← hstep]
    exact ih (fun y hy => hxs y (List.mem_cons_of_mem _ hy)) hshape

theorem disk_processPath (ha : a.write = true) (options : Layout.Options) {w : Work}
    (hw : w.disk.Proper) (path : Text) : (w.processPath a options path).disk =
      (w.disk.targets path).foldl (Disk.rewrite options) w.disk := by
  rw [processPath]
  cases hstart : w.disk.resolve path with
  | error e =>
    have hfile : ¬w.disk.isDirectory path = true := by
      rw [Disk.isDirectory_iff, hstart]
      simp
    rw [if_neg hfile, Disk.targets_of_error hstart]
    refine disk_processFile_of_unreadable options ?_
    intro x hread
    obtain ⟨q, hq, -⟩ := Disk.readDocument_eq_ok.mp hread
    rw [hstart] at hq
    cases hq
  | ok start =>
    by_cases hdir : ∃ n es, w.disk.root.descend start = some (.directory n es)
    · obtain ⟨n, es, hdir⟩ := hdir
      rw [if_pos (Disk.isDirectory_iff.mpr ⟨start, n, es, hstart, hdir⟩),
        Disk.scan_directory hstart hdir, Disk.targets_directory hstart hdir]
      cases w.disk.search start (.directory n es) with
      | error e => rfl
      | ok found =>
        -- the paths a scan writes out lead back to the entries it saw
        refine disk_foldl_processFile ha options hw ?_ rfl
        intro names hnames
        exact (Disk.resolve_scanned hw hstart hdir hnames).1
    · have hfile : ¬w.disk.isDirectory path = true := by
        rw [Disk.isDirectory_iff, hstart]
        rintro ⟨_, n, es, hok, hentry⟩
        obtain rfl := Except.ok.inj hok
        exact hdir ⟨n, es, hentry⟩
      rw [if_neg hfile, Disk.targets_other hstart hdir]
      exact disk_processFile ha options hstart

/-- What was written for earlier paths does not change where later paths lead. -/
theorem disk_foldl_processPath (ha : a.write = true) (options : Layout.Options)
    (paths : List Text) {w : Work} (hw : w.disk.Proper) :
    (paths.foldl (processPath a options) w).disk =
      (paths.flatMap w.disk.targets).foldl (Disk.rewrite options) w.disk := by
  induction paths generalizing w with
  | nil => rfl
  | cons path paths ih =>
    have hstep := disk_processPath ha options hw path
    have hshape : (w.processPath a options path).disk.shape = w.disk.shape := by
      rw [hstep, Disk.shape_foldl_rewrite hw]
    have htargets : (w.processPath a options path).disk.targets = w.disk.targets := by
      funext p
      rw [← Disk.targets_shape, hshape, Disk.targets_shape]
    rw [List.foldl_cons, ih (Disk.proper_of_shape hshape.symm hw), htargets, hstep,
      List.flatMap_cons, List.foldl_append]

end Work

def places (d : Disk) (a : Arguments) : List (List Text) :=
  if a.write then a.paths.flatMap d.visits else []

theorem disk_formatPaths {d : Disk} (hd : d.Proper) (a : Arguments) (options : Layout.Options) :
    (formatPaths a options d).disk = (places d a).foldl (Disk.rewrite options) d := by
  rw [formatPaths, places]
  cases ha : a.write with
  | false =>
    have hkeeps := Work.keeps_foldl (Work.keeps_processPath ha options) a.paths ⟨d, [], [], []⟩
    exact hkeeps.disk
  | true =>
    have hvisits : a.paths.flatMap d.visits =
        (a.paths.flatMap d.targets).filter fun place => (d.denial? place).isNone := by
      rw [List.filter_flatMap]
      rfl
    rw [if_pos rfl, hvisits, Disk.foldl_rewrite_filter hd]
    exact Work.disk_foldl_processPath ha options a.paths (w := ⟨d, [], [], []⟩) hd

theorem run_eq_formatPaths {env : Environment} {d : Disk} {a : Arguments}
    {options : Layout.Options} (hpaths : a.paths ≠ []) (h : layoutOptions env d a = .ok options)
    (stdin : Bytes) : run env d stdin (.run a) = formatPaths a options d := by
  have hsome : a.paths.isEmpty = false := by simpa using hpaths
  simp [run, runArguments, hsome, h]

theorem mem_places {d : Disk} {a : Arguments} {place : List Text} (h : place ∈ places d a) :
    d.denial? place = none ∧ ∃ path ∈ a.paths, place ∈ d.targets path := by
  rw [places] at h
  split at h
  · obtain ⟨path, hpath, hplace⟩ := List.mem_flatMap.mp h
    obtain ⟨htarget, hopen⟩ := Disk.mem_visits.mp hplace
    exact ⟨hopen, path, hpath, htarget⟩
  · cases h

/-- Writes that lead from one disk to another. Each finds the bytes that it was made from at an
allowed place, and puts their canonical form there, which is different. -/
inductive Performed (options : Layout.Options) (Allowed : List Text → Prop) :
    Disk → List Write → Disk → Prop where
  | nil (d) : Performed options Allowed d [] d
  | cons {d d' write writes place} : Allowed place → d.resolve write.path = .ok place →
      d.bytesAt place = some write.old → formatBytes options write.old = .ok write.new →
      write.new ≠ write.old → Performed options Allowed (d.replace place write.new) writes d' →
      Performed options Allowed d (write :: writes) d'

section Log

variable {options : Layout.Options} {Allowed : List Text → Prop} {d d' d'' : Disk}
  {ws vs : List Write}

theorem Performed.append (h : Performed options Allowed d ws d')
    (k : Performed options Allowed d' vs d'') : Performed options Allowed d (ws ++ vs) d'' := by
  induction h with
  | nil => exact k
  | cons hallowed hplace hold hform hne _ ih => exact .cons hallowed hplace hold hform hne (ih k)

theorem Performed.mono {Other : List Text → Prop} (h : Performed options Allowed d ws d')
    (himp : ∀ place, Allowed place → Other place) : Performed options Other d ws d' := by
  induction h with
  | nil d => exact .nil d
  | cons hallowed hplace hold hform hne _ ih => exact .cons (himp _ hallowed) hplace hold hform hne ih

theorem Performed.shape (h : Performed options Allowed d ws d') (hd : d.Proper) :
    d'.shape = d.shape := by
  induction h with
  | nil => rfl
  | @cons d d' write writes place _ _ hold _ _ _ ih =>
    have hshape := Disk.shape_replace hd (Disk.contentAt_of_bytesAt hold) write.new
    exact (ih (Disk.proper_of_shape hshape.symm hd)).trans hshape

/-- The work goes on by writes that its log tells. -/
def Work.Logs (options : Layout.Options) (Allowed : List Text → Prop) (w w' : Work) : Prop :=
  ∃ writes, w'.writes = w.writes ++ writes ∧ Performed options Allowed w.disk writes w'.disk

namespace Work

variable {a : Arguments} {w w' : Work}

theorem Logs.refl (w : Work) : Logs options Allowed w w :=
  ⟨[], (List.append_nil _).symm, .nil w.disk⟩

theorem Logs.trans {w'' : Work} (h : Logs options Allowed w w') (k : Logs options Allowed w' w'') :
    Logs options Allowed w w'' := by
  obtain ⟨ws, hws, hperformed⟩ := h
  obtain ⟨vs, hvs, hmore⟩ := k
  exact ⟨ws ++ vs, by rw [hvs, hws, List.append_assoc], hperformed.append hmore⟩

theorem Logs.shape (h : Logs options Allowed w w') (hw : w.disk.Proper) :
    w'.disk.shape = w.disk.shape := by
  obtain ⟨_, -, hperformed⟩ := h
  exact hperformed.shape hw

theorem Logs.mono {Other : List Text → Prop} (h : Logs options Allowed w w')
    (himp : ∀ place, Allowed place → Other place) : Logs options Other w w' := by
  obtain ⟨ws, hws, hperformed⟩ := h
  exact ⟨ws, hws, hperformed.mono himp⟩

end Work
end Log

/-- A directory with a file that is no text, a Markdown file and one that is none. -/
def docs : Disk :=
  ⟨.directory [] [.directory "docs".toList
    [.file "bad.md".toList [0xff], .file "list.md".toList (Utf8.encode "*  x\n".toList),
      .file "list.txt".toList (Utf8.encode "*  x\n".toList)]], ⟨[], []⟩⟩

end Command
end CanonMark
