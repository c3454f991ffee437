import CanonMark.Command.Run

/-! # The program

Everything is decided on a disk in memory. This module reads the part of the real file system that
the arguments can reach, runs the command, and carries out its writes.
-/
namespace CanonMark.Program

def absolute (place : List Text) : String := String.ofList ('/' :: Text.join ['/'] place)

def osError : IO.Error → OsError
  | .permissionDenied _ _ _ => .denied
  | _ => .inputOutput

abbrev Denials := List (List Text × OsError)

/-- The entry at a place, with all that is below it. What the system does not give is left empty and
noted. -/
partial def load (place : List Text) : StateT Denials IO (Option Entry) := do
  let real := (← IO.currentDir) / absolute place
  let name := place.getLast?.getD []
  let deny (e : IO.Error) : StateT Denials IO Unit := modify ((place, osError e) :: ·)
  if ← real.isDir then
    let listing ← try pure (← real.readDir).toList catch e => deny e; pure []
    let entries ← listing.mapM fun e => load (place ++ [e.fileName.toList])
    return some (.directory name (entries.filterMap id))
  else if ← real.pathExists then
    let content ← try pure (← IO.FS.readBinFile real).toList catch e => deny e; pure []
    return some (.file name content)
  else return none

def addShallow (root : Entry) (place : List Text) : IO Entry := do
  let real := (← IO.currentDir) / absolute place
  match root.descend place, place.getLast? with
  | none, some name =>
    if ← real.isDir then return Entry.put (.directory name []) place.dropLast root
    else return root
  | _, _ => return root

def addDeep (root : Entry) (place : List Text) : StateT Denials IO Entry := do
  match ← load place with
  | some e => return if place.isEmpty then e else Entry.put e place.dropLast root
  | none => return root

def addSteps (root : Entry) (place : List Text) : List Text → StateT Denials IO Entry
  | [] => addDeep root place
  | step :: steps => do
    let root ← addShallow root place
    if step.isEmpty || step == ['.'] then addSteps root place steps
    else if step == ['.', '.'] then addSteps root place.dropLast steps
    else addSteps root (place ++ [step]) steps

def addPath (d : Disk) (path : Text) : IO Disk := do
  let (root, denials) ← (addSteps d.root (d.origin path) (Path.steps path)).run d.process.denials
  return ⟨root, ⟨d.here, denials⟩⟩

def addPlaces (root : Entry) (place : List Text) : List Text → IO Entry
  | [] => return root
  | name :: names => do addPlaces (← addShallow root (place ++ [name])) (place ++ [name]) names

/-- Carries out the writes of a run. One that the system refuses is reported. -/
def perform (writes : List Command.Write) : IO (List Command.Diagnostic) :=
  writes.filterMapM fun w => do
    try
      IO.FS.writeBinFile (String.ofList w.path) (ByteArray.mk w.new.toArray)
      return none
    catch e => return some (.store w.path (.os (osError e)))

def environment : IO Environment := do
  let raw ← try IO.FS.readBinFile "/proc/self/environ" catch _ => pure ByteArray.empty
  let pairs := (raw.toList.splitBy fun a _ => a != 0).filterMap fun bytes =>
    match Utf8.decode (bytes.filter (· != 0)) with
    | .ok t =>
      let name := t.takeWhile (· != '=')
      some (name, t.drop (name.length + 1))
    | .error _ => none
  return ⟨fun name => pairs.lookup name, none⟩

partial def readAll (input : IO.FS.Stream) (sofar : ByteArray) : IO ByteArray := do
  let chunk ← input.read 65536
  if chunk.isEmpty then return sofar else readAll input (sofar ++ chunk)

def disk (env : Environment) (a : Command.Arguments) : IO Disk := do
  let here := Path.components (← IO.currentDir).toString.toList
  let root ← addPlaces (.directory [] []) [] here
  let config := env.expand (a.config.getD (Settings.defaultPath env))
  (config :: a.paths).foldlM addPath ⟨root, ⟨here, []⟩⟩

def run (arguments : List String) : IO UInt32 := do
  let env ← environment
  let request := Command.request (arguments.map String.toList)
  let (before, stdin) ←
    match request with
    | .run a => do
      let stdin ← if a.paths.isEmpty then readAll (← IO.getStdin) .empty else pure .empty
      pure (← disk env a, stdin)
    | _ => pure (⟨.directory [] [], ⟨[], []⟩⟩, .empty)
  let outcome := Command.run env before stdin.toList request
  let refused ← perform outcome.writes
  let out ← IO.getStdout
  out.write (ByteArray.mk outcome.output.toArray)
  out.flush
  let diagnostics := outcome.diagnostics ++ refused
  IO.eprint (String.ofList (diagnostics.flatMap Command.Diagnostic.line))
  return if refused.isEmpty then outcome.status.toUInt32 else 1

end CanonMark.Program

def main (arguments : List String) : IO UInt32 := CanonMark.Program.run arguments
