import CanonMark.Proofs.Command.Writes

/-! # Failing files

A run turns to one occurrence after the other: a file, or a directory that it cannot scan. Whether a
file fails is decided by the disk as the occurrences before it have left it. One that fails is
reported and leaves no other trace, so the rest goes as if it had never been named.
-/
namespace CanonMark

namespace Disk

/-- The files at a path: a directory is scanned, any other path stands for itself. -/
def find (d : Disk) (path : Text) : Except FileError (List Text) :=
  if d.isDirectory path then d.scan path else .ok [path]

theorem storeDocument_of_formatted {d : Disk} {options : Layout.Options} {path : Text}
    {f : Formatted} (h : d.formatDocument options path = .ok f) :
    ∃ d', d.storeDocument path f.canonical = .ok d' := by
  obtain ⟨x, t, hread, -, rfl⟩ := formatDocument_eq_ok.mp h
  obtain ⟨place, hplace, hbytes⟩ := readDocument_eq_ok.mp hread
  exact ⟨_, storeDocument_of_bytesAt hplace hbytes t⟩

theorem not_isDirectory_of_formatted {d : Disk} {options : Layout.Options} {path : Text}
    {f : Formatted} (h : d.formatDocument options path = .ok f) : d.isDirectory path = false := by
  obtain ⟨x, t, hread, -, -⟩ := formatDocument_eq_ok.mp h
  obtain ⟨place, hplace, hbytes⟩ := readDocument_eq_ok.mp hread
  obtain ⟨n, hfile⟩ := Entry.contentAt_eq_some.mp (contentAt_of_bytesAt hbytes)
  simp [isDirectory, entry?, hplace, hfile, Entry.isDirectory]

end Disk

namespace Command

/-- One thing that a run turns to. -/
inductive Occurrence where
  | file (path : Text)
  | unscanned (path : Text) (cause : FileError)
  deriving DecidableEq, Repr

def occurrences (d : Disk) (path : Text) : List Occurrence :=
  match d.find path with
  | .ok files => files.map .file
  | .error e => [.unscanned path e]

namespace Occurrence

def process (a : Arguments) (options : Layout.Options) (w : Work) : Occurrence → Work
  | .file path => w.processFile a options path
  | .unscanned path e => w.report (.scan path e)

/-- What is wrong with an occurrence, on the disk as it is. -/
def fault? (options : Layout.Options) (d : Disk) : Occurrence → Option Diagnostic
  | .file path =>
    match d.formatDocument options path with
    | .ok _ => none
    | .error e => some (.file path e)
  | .unscanned path e => some (.scan path e)

/-- The disk with a file written back, if that is asked for and its form changes. -/
def leaves (a : Arguments) (options : Layout.Options) (d : Disk) : Occurrence → Disk
  | .file path =>
    match d.formatDocument options path with
    | .ok f =>
      if a.write && f.changed then
        match d.storeDocument path f.canonical with
        | .ok d => d
        | .error _ => d
      else d
    | .error _ => d
  | .unscanned _ _ => d

def prints (a : Arguments) (options : Layout.Options) (d : Disk) : Occurrence → Bytes
  | .file path =>
    match d.formatDocument options path with
    | .ok f =>
      if !a.write && !a.list then Utf8.encode f.canonical
      else if a.list && f.changed then Utf8.encode (path ++ ['\n'])
      else []
    | .error _ => []
  | .unscanned _ _ => []

def logs (a : Arguments) (options : Layout.Options) (d : Disk) : Occurrence → List Write
  | .file path =>
    match d.formatDocument options path with
    | .ok f => if a.write && f.changed then [⟨path, f.source, Utf8.encode f.canonical⟩] else []
    | .error _ => []
  | .unscanned _ _ => []

theorem process_eq (a : Arguments) (options : Layout.Options) (w : Work) (o : Occurrence) :
    o.process a options w = ⟨o.leaves a options w.disk, w.output ++ o.prints a options w.disk,
      w.diagnostics ++ (o.fault? options w.disk).toList,
      w.writes ++ o.logs a options w.disk⟩ := by
  cases o with
  | unscanned path e => simp [process, leaves, prints, fault?, logs, Work.report]
  | file path =>
    rw [process, Work.processFile, leaves, prints, fault?, logs]
    cases hformat : w.disk.formatDocument options path with
    | error e => simp [Work.report]
    | ok f =>
      obtain ⟨d', hstore⟩ := Disk.storeDocument_of_formatted hformat
      obtain ⟨x, t, -, -, rfl⟩ := Disk.formatDocument_eq_ok.mp hformat
      simp only [Work.deliver]
      cases a.write <;> cases a.list <;> cases Formatted.changed ⟨path, x, t⟩ <;>
        simp [Work.print, Work.store, hstore]

end Occurrence

/-- An occurrence and what was wrong with it when its turn came. -/
structure Attempt where
  occurrence : Occurrence
  fault : Option Diagnostic
  deriving DecidableEq, Repr

def Attempt.success? (t : Attempt) : Option Text :=
  match t.occurrence, t.fault with
  | .file path, none => some path
  | _, _ => none

def attempts (a : Arguments) (options : Layout.Options) (d : Disk) :
    List Occurrence → List Attempt
  | [] => []
  | o :: os => ⟨o, o.fault? options d⟩ :: attempts a options (o.leaves a options d) os

def course (a : Arguments) (options : Layout.Options) (d : Disk) : List Text → List Attempt
  | [] => []
  | path :: paths =>
    let os := occurrences d path
    attempts a options d os ++ course a options (os.foldl (Occurrence.leaves a options) d) paths

section Course

variable (a : Arguments) (options : Layout.Options)

theorem disk_foldl_process (os : List Occurrence) (w : Work) :
    (os.foldl (Occurrence.process a options) w).disk =
      os.foldl (Occurrence.leaves a options) w.disk := by
  induction os generalizing w with
  | nil => rfl
  | cons o os ih =>
    rw [List.foldl_cons, List.foldl_cons, ih, Occurrence.process_eq]

theorem diagnostics_foldl_process (os : List Occurrence) (w : Work) :
    (os.foldl (Occurrence.process a options) w).diagnostics =
      w.diagnostics ++ (attempts a options w.disk os).filterMap Attempt.fault := by
  induction os generalizing w with
  | nil => simp [attempts]
  | cons o os ih =>
    rw [List.foldl_cons, ih, Occurrence.process_eq, attempts]
    cases o.fault? options w.disk <;> simp

theorem success?_eq_some {o : Occurrence} {d : Disk} {path : Text} {options : Layout.Options} :
    Attempt.success? ⟨o, o.fault? options d⟩ = some path ↔
      o = .file path ∧ ∃ f, d.formatDocument options path = .ok f := by
  cases o with
  | unscanned p e => simp [Attempt.success?]
  | file p =>
    cases hformat : d.formatDocument options p with
    | error e =>
      simp only [Attempt.success?, Occurrence.fault?, hformat, reduceCtorEq, false_iff, not_and,
        not_exists, Occurrence.file.injEq]
      rintro rfl f
      simp [hformat]
    | ok f =>
      simp only [Attempt.success?, Occurrence.fault?, hformat, Option.some.injEq,
        Occurrence.file.injEq, iff_self_and]
      rintro rfl
      exact ⟨f, hformat⟩

def Work.silent (w : Work) : Work := { w with diagnostics := [] }

/-- A file that succeeds is handled as if its path had been given. -/
theorem silent_process_of_success {o : Occurrence} {w : Work} {path : Text}
    (h : Attempt.success? ⟨o, o.fault? options w.disk⟩ = some path) :
    (o.process a options w).silent = w.silent.processPath a options path := by
  obtain ⟨rfl, f, hformat⟩ := success?_eq_some.mp h
  have hfile : ¬w.silent.disk.isDirectory path = true := by
    rw [Work.silent, Disk.not_isDirectory_of_formatted hformat]
    exact Bool.false_ne_true
  have hfault : (Occurrence.file path).fault? options w.disk = none := by
    rw [Occurrence.fault?, hformat]
  rw [Work.processPath, if_neg hfile]
  change _ = (Occurrence.file path).process a options w.silent
  simp [Occurrence.process_eq, Work.silent, hfault]

theorem silent_process_of_failure {o : Occurrence} {w : Work}
    (h : Attempt.success? ⟨o, o.fault? options w.disk⟩ = none) :
    (o.process a options w).silent = w.silent := by
  rw [Occurrence.process_eq]
  cases o with
  | unscanned path e => simp [Work.silent, Occurrence.leaves, Occurrence.prints, Occurrence.logs]
  | file path =>
    cases hformat : w.disk.formatDocument options path with
    | ok f => simp [Attempt.success?, Occurrence.fault?, hformat] at h
    | error e =>
      simp [Work.silent, Occurrence.leaves, Occurrence.prints, Occurrence.logs, hformat]

theorem silent_foldl_process (os : List Occurrence) (w : Work) :
    (os.foldl (Occurrence.process a options) w).silent =
      ((attempts a options w.disk os).filterMap Attempt.success?).foldl
        (Work.processPath a options) w.silent := by
  induction os generalizing w with
  | nil => rfl
  | cons o os ih =>
    have hdisk : (o.process a options w).disk = o.leaves a options w.disk := by
      rw [Occurrence.process_eq]
    rw [List.foldl_cons, ih, hdisk, attempts, List.filterMap_cons]
    cases hsuccess : Attempt.success? ⟨o, o.fault? options w.disk⟩ with
    | none => rw [silent_process_of_failure a options hsuccess]
    | some path => rw [silent_process_of_success a options hsuccess, List.foldl_cons]

theorem processPath_eq (w : Work) (path : Text) : w.processPath a options path =
    (occurrences w.disk path).foldl (Occurrence.process a options) w := by
  rw [Work.processPath, occurrences, Disk.find]
  split
  · cases w.disk.scan path with
    | ok files =>
      simp only [List.foldl_map]
      rfl
    | error e => rfl
  · rfl

/-- What holds of the occurrences at one path holds of all paths: each path is looked up on the disk
that the paths before it have left. -/
theorem foldl_processPath (paths : List Text) (w : Work) :
    let w' := paths.foldl (Work.processPath a options) w
    let all := course a options w.disk paths
    w'.diagnostics = w.diagnostics ++ all.filterMap Attempt.fault ∧
      w'.silent = (all.filterMap Attempt.success?).foldl (Work.processPath a options) w.silent := by
  induction paths generalizing w with
  | nil => simp [course]
  | cons path paths ih =>
    obtain ⟨hdiagnostics, hsilent⟩ := ih (w.processPath a options path)
    rw [processPath_eq, disk_foldl_process] at hdiagnostics hsilent
    rw [diagnostics_foldl_process] at hdiagnostics
    rw [silent_foldl_process] at hsilent
    rw [← processPath_eq] at hdiagnostics hsilent
    constructor
    · simp only [List.foldl_cons, course, List.filterMap_append, hdiagnostics, List.append_assoc]
    · simp only [List.foldl_cons, course, List.filterMap_append, hsilent, List.foldl_append]

end Course

/-- Each directory that cannot be scanned and each file that fails is reported once, in the order of
the run; the status says whether there was one; and what is printed and written is what the files
that succeed give by themselves. -/
theorem run_isolates_failures (env : Environment) (d : Disk) (stdin : Bytes) (a : Arguments)
    (options : Layout.Options) (hpaths : a.paths ≠ [])
    (hoptions : layoutOptions env d a = .ok options) :
    let out := run env d stdin (.run a)
    let all := course a options d a.paths
    out.diagnostics = all.filterMap Attempt.fault ∧
    out.status = (if all.filterMap Attempt.fault = [] then 0 else 1) ∧
    formatPaths { a with paths := all.filterMap Attempt.success? } options d =
      ⟨0, out.output, [], out.disk, out.writes⟩ := by
  intro out all
  have hout : out = formatPaths a options d := run_eq_formatPaths hpaths hoptions stdin
  obtain ⟨hdiagnostics, hsilent⟩ := foldl_processPath a options a.paths ⟨d, [], [], []⟩
  rw [List.nil_append] at hdiagnostics
  have hcourse : out.diagnostics = all.filterMap Attempt.fault := by
    rw [hout]
    exact hdiagnostics
  have hstatus : out.status = if out.diagnostics.isEmpty then 0 else 1 := by
    rw [hout]
    rfl
  refine ⟨hcourse, ?_, ?_⟩
  · rw [hstatus, hcourse]
    simp only [List.isEmpty_iff]
  · -- the paths are the only part of the arguments that handling a file does not look at
    have hpath : Work.processPath { a with paths := all.filterMap Attempt.success? } options =
        Work.processPath a options := rfl
    have hgood : (all.filterMap Attempt.success?).foldl (Work.processPath a options)
        ⟨d, [], [], []⟩ = ⟨out.disk, out.output, [], out.writes⟩ := by
      rw [hout]
      exact hsilent.symm
    rw [formatPaths, hpath, hgood]
    rfl

/-- The disk `docs` with a file more, and with a directory beside it. Neither can be read. -/
def sealed : Disk :=
  ⟨.directory [] [.directory "docs".toList
      [.file "bad.md".toList [0xff], .file "kept.md".toList [],
        .file "list.md".toList (Utf8.encode "*  x\n".toList)],
    .directory "vault".toList [.file "list.md".toList (Utf8.encode "*  y\n".toList)]],
    ⟨[], [(["docs".toList, "kept.md".toList], .inputOutput), (["vault".toList], .denied)]⟩⟩

/-- Two directories, a missing file, a file met before, and one below the directory that cannot be
scanned. -/
def failing : Arguments :=
  ⟨["vault".toList, "docs".toList, "gone.md".toList, "docs/list.md".toList, "vault/list.md".toList],
    none, true, true, none⟩

theorem run_isolates_failures_sealed :
    request ["-lw".toList, "vault".toList, "docs".toList, "gone.md".toList, "docs/list.md".toList,
      "vault/list.md".toList] = .run failing ∧
    failing.paths ≠ [] ∧ layoutOptions ⟨fun _ => none, none⟩ sealed failing = .ok ⟨80⟩ ∧
    let out := run ⟨fun _ => none, none⟩ sealed [] (.run failing)
    out.diagnostics = [.scan "vault".toList (.os .denied),
      .file "docs/bad.md".toList (.layout (.invalidUtf8 (.invalid 1 0))),
      .file "docs/kept.md".toList (.os .inputOutput),
      .file "gone.md".toList (.notFound "gone.md".toList)] ∧
    out.status = 1 ∧
    formatPaths { failing with paths :=
        ["docs/list.md".toList, "docs/list.md".toList, "vault/list.md".toList] } ⟨80⟩ sealed =
      ⟨0, out.output, [], out.disk, out.writes⟩ := by
  have hoptions : layoutOptions ⟨fun _ => none, none⟩ sealed failing = .ok ⟨80⟩ := by rfl
  obtain ⟨hdiagnostics, hstatus, hgood⟩ :=
    run_isolates_failures ⟨fun _ => none, none⟩ sealed [] failing ⟨80⟩ (by decide) hoptions
  -- the scans are evaluated apart from the files that they find
  have hvault : occurrences sealed "vault".toList = [.unscanned "vault".toList (.os .denied)] := by
    cbv
  have hdocs : occurrences sealed "docs".toList =
      [.file "docs/bad.md".toList, .file "docs/kept.md".toList, .file "docs/list.md".toList] := by
    cbv
  have hcourse : course failing ⟨80⟩ sealed failing.paths =
      [⟨.unscanned "vault".toList (.os .denied), some (.scan "vault".toList (.os .denied))⟩,
        ⟨.file "docs/bad.md".toList,
          some (.file "docs/bad.md".toList (.layout (.invalidUtf8 (.invalid 1 0))))⟩,
        ⟨.file "docs/kept.md".toList, some (.file "docs/kept.md".toList (.os .inputOutput))⟩,
        ⟨.file "docs/list.md".toList, none⟩,
        ⟨.file "gone.md".toList, some (.file "gone.md".toList (.notFound "gone.md".toList))⟩,
        ⟨.file "docs/list.md".toList, none⟩, ⟨.file "vault/list.md".toList, none⟩] := by
    have hstays : [Occurrence.unscanned "vault".toList (.os .denied)].foldl
        (Occurrence.leaves failing ⟨80⟩) sealed = sealed := rfl
    have hpaths : failing.paths = "vault".toList :: "docs".toList ::
      ["gone.md".toList, "docs/list.md".toList, "vault/list.md".toList] := rfl
    rw [hpaths, course, hvault, hstays, course, hdocs]
    decide +kernel
  rw [hcourse] at hdiagnostics hstatus hgood
  exact ⟨by rfl, by decide, hoptions, hdiagnostics, hstatus, hgood⟩

end Command
end CanonMark
