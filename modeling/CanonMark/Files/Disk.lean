import CanonMark.Files.Path
import CanonMark.Text.Utf8

/-! # Files and directories

A disk is a tree of entries, seen by a process that stands in one of its directories and may be kept
from reading some of them. There are no links, and names are Unicode text. Operations fail the way
the operating system reports it; a file that is there can be written.
-/
namespace CanonMark

inductive Entry where
  | file (name : Text) (content : Bytes)
  | directory (name : Text) (entries : List Entry)
  deriving Repr

inductive OsError where
  | notFound
  | exists
  | notDirectory
  | isDirectory
  | denied
  | inputOutput
  deriving DecidableEq, Repr

def OsError.message : OsError → Text
  | .notFound => "No such file or directory (os error 2)".toList
  | .exists => "File exists (os error 17)".toList
  | .notDirectory => "Not a directory (os error 20)".toList
  | .isDirectory => "Is a directory (os error 21)".toList
  | .denied => "Permission denied (os error 13)".toList
  | .inputOutput => "Input/output error (os error 5)".toList

namespace Entry

def name : Entry → Text
  | file n _ => n
  | directory n _ => n

def isDirectory : Entry → Bool
  | file _ _ => false
  | directory _ _ => true

def child? (e : Entry) (name : Text) : Option Entry :=
  match e with
  | file _ _ => none
  | directory _ entries => entries.find? fun c => c.name == name

def descend (e : Entry) : List Text → Option Entry
  | [] => some e
  | name :: names => (e.child? name).bind fun c => c.descend names

def putAmong (new : Entry) : List Entry → List Entry
  | [] => [new]
  | e :: es => if e.name == new.name then new :: es else e :: putAmong new es

/-- Puts an entry into the directory at the end of a chain of names. Nothing changes if there is no
such directory. -/
def put (new : Entry) : List Text → Entry → Entry
  | [], directory n entries => directory n (putAmong new entries)
  | name :: names, directory n entries =>
    directory n (entries.map fun e => if e.name == name then put new names e else e)
  | _, e => e

end Entry

/-- A process by its current directory and by the places that it cannot read, with the answer that
it gets there. It may still pass through a directory of which it cannot list the entries. -/
structure Process where
  here : List Text
  denials : List (List Text × OsError)
  deriving Repr

instance : Coe (List Text) Process := ⟨fun here => ⟨here, []⟩⟩

structure Disk where
  root : Entry
  process : Process
  deriving Repr

namespace Disk

def here (d : Disk) : List Text := d.process.here

def denial? (d : Disk) (place : List Text) : Option OsError :=
  (d.process.denials.find? fun denial => denial.1 == place).map (·.2)

def follow (root : Entry) (place : List Text) : List Text → Except OsError (List Text)
  | [] => .ok place
  | step :: steps =>
    match root.descend place with
    | some (.directory _ _) =>
      if step.isEmpty || step == ['.'] then follow root place steps
      else if step == ['.', '.'] then follow root place.dropLast steps
      else if (root.descend (place ++ [step])).isSome then follow root (place ++ [step]) steps
      else .error .notFound
    | _ => .error .notDirectory

def origin (d : Disk) (path : Text) : List Text := if Path.isAbsolute path then [] else d.here

/-- The place that a path names. The empty path names none. -/
def resolve (d : Disk) (path : Text) : Except OsError (List Text) :=
  if path.isEmpty then .error .notFound else follow d.root (d.origin path) (Path.steps path)

def entry? (d : Disk) (path : Text) : Option Entry :=
  match d.resolve path with
  | .ok place => d.root.descend place
  | .error _ => none

def exists? (d : Disk) (path : Text) : Bool := (d.entry? path).isSome

def isDirectory (d : Disk) (path : Text) : Bool := (d.entry? path).any Entry.isDirectory

def readAt (d : Disk) (place : List Text) : Except OsError Bytes :=
  match d.denial? place with
  | some e => .error e
  | none =>
    match d.root.descend place with
    | some (.file _ content) => .ok content
    | some (.directory _ _) => .error .isDirectory
    | none => .error .notFound

def read (d : Disk) (path : Text) : Except OsError Bytes :=
  match d.resolve path with
  | .error e => .error e
  | .ok place => d.readAt place

def putAt (d : Disk) (place : List Text) (new : Entry) : Except OsError Disk :=
  match d.root.descend place with
  | some (.directory _ _) => .ok { d with root := Entry.put new place d.root }
  | _ => .error .notDirectory

def create (d : Disk) (path : Text) (content : Bytes) : Except OsError Disk :=
  match (Path.steps path).reverse with
  | [] => .error .notFound
  | last :: before => do
    if last.isEmpty then
      let _ ← follow d.root (d.origin path) before.reverse.dropLast
      .error .isDirectory
    else
      let place ← follow d.root (d.origin path) before.reverse
      if last == ['.'] || last == ['.', '.'] then .error .notFound
      else d.putAt place (.file last content)

/-- Replaces the content of a file, or makes the file. -/
def write (d : Disk) (path : Text) (content : Bytes) : Except OsError Disk :=
  match d.resolve path with
  | .ok place =>
    match d.root.descend place, place.getLast? with
    | some (.file _ _), some name => d.putAt place.dropLast (.file name content)
    | _, _ => .error .isDirectory
  | .error .notFound => if path.isEmpty then .error .notFound else d.create path content
  | .error e => .error e

def makeDirectory (d : Disk) (origin names : List Text) : Except OsError Disk :=
  match follow d.root origin names with
  | .ok _ => .error .exists
  | .error .notFound => do
    let place ← follow d.root origin names.dropLast
    match names.getLast? with
    | some name => d.putAt place (.directory name [])
    | none => .error .notFound
  | .error e => .error e

def isDirectoryAt (d : Disk) (origin names : List Text) : Bool :=
  match follow d.root origin names with
  | .ok place => (d.root.descend place).any Entry.isDirectory
  | .error _ => false

def makeDirectories (d : Disk) (origin : List Text) : List Text → Except OsError Disk
  | [] => .ok d
  | last :: before =>
    let names := (last :: before).reverse
    let tolerate (d : Disk) (e : OsError) : Except OsError Disk :=
      if d.isDirectoryAt origin names then .ok d else .error e
    match d.makeDirectory origin names with
    | .ok d => .ok d
    | .error .notFound =>
      match d.makeDirectories origin before with
      | .error e => .error e
      | .ok d =>
        match d.makeDirectory origin names with
        | .ok d => .ok d
        | .error e => tolerate d e
    | .error e => tolerate d e

def store (d : Disk) (path : Text) (content : Bytes) : Except OsError Disk :=
  match Path.parent? path with
  | some names =>
    match d.makeDirectories (d.origin path) names.reverse with
    | .ok d => d.write path content
    | .error e => .error e
  | none => d.write path content

end Disk
end CanonMark
