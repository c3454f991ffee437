import CanonMark.Command.Arguments
import CanonMark.Config.Load
import CanonMark.Files.Document

/-! # Running the command

A run takes a disk, an environment and the standard input, and gives an outcome with the disk as it
is afterwards. A file that fails is reported and the others go on.
-/
namespace CanonMark

/-- The message with the messages of its causes behind it. -/
def LayoutError.report (e : LayoutError) : Text :=
  match e with
  | .invalidUtf8 fault => e.message ++ ": ".toList ++ fault.message
  | _ => e.message

def FileError.report (e : FileError) : Text :=
  match e with
  | .notFound _ => e.message
  | .os cause => e.message ++ ": ".toList ++ cause.message
  | .layout cause => cause.report

def ConfigError.report (e : ConfigError) : Text :=
  match e with
  | .unreadable _ cause => e.message ++ ": ".toList ++ cause.message
  | _ => e.message

namespace Command

inductive Diagnostic where
  | writeWithoutPaths
  | config (cause : ConfigError)
  | input (cause : LayoutError)
  | scan (path : Text) (cause : FileError)
  | file (path : Text) (cause : FileError)
  | store (path : Text) (cause : FileError)
  deriving DecidableEq, Repr

def Diagnostic.message : Diagnostic → Text
  | .writeWithoutPaths => "cannot use -w when reading stdin".toList
  | .config cause => cause.report
  | .input cause => cause.report
  | .scan path cause => path ++ ": ".toList ++ cause.message
  | .file path cause => path ++ ": ".toList ++ cause.report
  | .store path cause => "failed to write ".toList ++ path ++ ": ".toList ++ cause.report

def Diagnostic.line (d : Diagnostic) : Text := "error: ".toList ++ d.message ++ ['\n']

/-- A file written back, with the bytes it was formatted from and those that it holds now. -/
structure Write where
  path : Text
  old : Bytes
  new : Bytes
  deriving DecidableEq, Repr

structure Outcome where
  status : Nat
  output : Bytes
  diagnostics : List Diagnostic
  disk : Disk
  writes : List Write
  deriving Repr

/-- The name of the standard input in a list of files. -/
def stdinName : Text := "<stdin>".toList

def versionLine : Text := "mdfmt 0.1.0\n".toList

def helpText : Text :=
  ("Rewrite markdown in one canonical style\n\n" ++
    "Usage: mdfmt [OPTIONS] [PATH]...\n\n" ++
    "  -c, --cols <N>       Number of columns to wrap output\n" ++
    "  -w                   Write changes back to the source file\n" ++
    "  -l                   List files whose canonical form differs from their contents\n" ++
    "      --config <PATH>  Config file to read instead of ~/.config/mdfmt/config.toml\n" ++
    "  -h, --help           Print help\n" ++
    "  -V, --version        Print version\n").toList

def layoutOptions (env : Environment) (d : Disk) (a : Arguments) :
    Except ConfigError Layout.Options := do
  let settings ←
    match a.config with
    | some path => some <$> Settings.loadRequired env d path
    | none => Settings.load env d
  pure (.ofCols (Settings.resolveCols settings a.cols Layout.defaultCols))

structure Work where
  disk : Disk
  output : Bytes
  diagnostics : List Diagnostic
  writes : List Write
  deriving Repr

namespace Work

def print (w : Work) (bytes : Bytes) : Work := { w with output := w.output ++ bytes }

def report (w : Work) (d : Diagnostic) : Work := { w with diagnostics := w.diagnostics ++ [d] }

def store (w : Work) (f : Formatted) : Work :=
  match w.disk.storeDocument f.path f.canonical with
  | .ok disk =>
    { w with disk, writes := w.writes ++ [⟨f.path, f.source, Utf8.encode f.canonical⟩] }
  | .error e => w.report (.store f.path e)

def deliver (w : Work) (a : Arguments) (f : Formatted) : Work :=
  if !a.write && !a.list then w.print (Utf8.encode f.canonical)
  else if f.changed then
    let w := if a.list then w.print (Utf8.encode (f.path ++ ['\n'])) else w
    if a.write then w.store f else w
  else w

def processFile (a : Arguments) (options : Layout.Options) (w : Work) (path : Text) : Work :=
  match w.disk.formatDocument options path with
  | .ok f => w.deliver a f
  | .error e => w.report (.file path e)

def processPath (a : Arguments) (options : Layout.Options) (w : Work) (path : Text) : Work :=
  if w.disk.isDirectory path then
    match w.disk.scan path with
    | .ok files => files.foldl (processFile a options) w
    | .error e => w.report (.scan path e)
  else processFile a options w path

end Work

def failure (d : Disk) (diagnostic : Diagnostic) : Outcome := ⟨1, [], [diagnostic], d, []⟩

def formatInput (a : Arguments) (options : Layout.Options) (d : Disk) (stdin : Bytes) : Outcome :=
  match formatBytes options stdin with
  | .error e => failure d (.input e)
  | .ok output =>
    if !a.list then ⟨0, output, [], d, []⟩
    else if output != stdin then ⟨0, Utf8.encode (stdinName ++ ['\n']), [], d, []⟩
    else ⟨0, [], [], d, []⟩

def formatPaths (a : Arguments) (options : Layout.Options) (d : Disk) : Outcome :=
  let w := a.paths.foldl (Work.processPath a options) ⟨d, [], [], []⟩
  ⟨if w.diagnostics.isEmpty then 0 else 1, w.output, w.diagnostics, w.disk, w.writes⟩

def runArguments (env : Environment) (d : Disk) (stdin : Bytes) (a : Arguments) : Outcome :=
  if a.paths.isEmpty && a.write then failure d .writeWithoutPaths
  else
    match layoutOptions env d a with
    | .error e => failure d (.config e)
    | .ok options =>
      if a.paths.isEmpty then formatInput a options d stdin else formatPaths a options d

def run (env : Environment) (d : Disk) (stdin : Bytes) : Request → Outcome
  | .run a => runArguments env d stdin a
  | .version => ⟨0, Utf8.encode versionLine, [], d, []⟩
  | .help => ⟨0, Utf8.encode helpText, [], d, []⟩
  | .usageError => ⟨2, [], [], d, []⟩

end Command
end CanonMark
