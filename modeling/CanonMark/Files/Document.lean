import CanonMark.Files.Scan
import CanonMark.Format

/-! # Documents on a disk -/
namespace CanonMark

inductive FileError where
  | notFound (path : Text)
  | os (cause : OsError)
  | layout (cause : LayoutError)
  deriving DecidableEq, Repr

namespace FileError

def message : FileError → Text
  | notFound path => "file not found: ".toList ++ path
  | os cause => "IO error: ".toList ++ cause.message
  | layout cause => cause.message

end FileError

structure Formatted where
  path : Text
  source : Bytes
  canonical : Text
  deriving DecidableEq, Repr

def Formatted.changed (f : Formatted) : Bool := f.source != Utf8.encode f.canonical

namespace Disk

def readDocument (d : Disk) (path : Text) : Except FileError Bytes :=
  if !d.exists? path then .error (.notFound path)
  else
    match d.read path with
    | .ok content => .ok content
    | .error e => .error (.os e)

def formatDocument (d : Disk) (options : Layout.Options) (path : Text) :
    Except FileError Formatted :=
  match d.readDocument path with
  | .error e => .error e
  | .ok source =>
    match formatDecoded options source with
    | .ok canonical => .ok ⟨path, source, canonical⟩
    | .error e => .error (.layout e)

def storeDocument (d : Disk) (path : Text) (content : Text) : Except FileError Disk :=
  match d.store path (Utf8.encode content) with
  | .ok d => .ok d
  | .error e => .error (.os e)

/-- The paths of the Markdown files below a directory in the order of their names, each written
behind the path given. -/
def scan (d : Disk) (path : Text) : Except FileError (List Text) :=
  match d.resolve path with
  | .error _ => .error (.notFound path)
  | .ok place =>
    match d.root.descend place with
    | none => .error (.notFound path)
    | some (.file _ _) => .error (.os .notDirectory)
    | some (.directory name entries) =>
      match d.search place (.directory name entries) with
      | .error e => .error (.os e)
      | .ok found =>
        .ok ((found.mergeSort Path.lessEq).map fun names => names.foldl Path.join path)

end Disk
end CanonMark
