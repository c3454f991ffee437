import CanonMark.Config.Expansion
import CanonMark.Config.Settings
import CanonMark.Files.Disk

/-! # Loading settings -/
namespace CanonMark

inductive ReadFault where
  | os (cause : OsError)
  | notText
  deriving DecidableEq, Repr

def ReadFault.message : ReadFault → Text
  | .os cause => cause.message
  | .notText => "stream did not contain valid UTF-8".toList

inductive ConfigError where
  | notFound (path : Text)
  | unreadable (path : Text) (cause : ReadFault)
  | malformed (path : Text)
  deriving DecidableEq, Repr

def ConfigError.message : ConfigError → Text
  | .notFound path => "Config file not found at ".toList ++ path
  | .unreadable path cause =>
    "Failed to read config file at ".toList ++ path ++ ": ".toList ++ cause.message
  | .malformed path => "Failed to parse config file at ".toList ++ path

def Disk.readText (d : Disk) (path : Text) : Except ReadFault Text :=
  match d.read path with
  | .error e => .error (.os e)
  | .ok content =>
    match Utf8.decode content with
    | .ok t => .ok t
    | .error _ => .error .notText

namespace Settings

/-- Reads the file at exactly this path; a file that does not exist sets nothing. -/
def readFile (d : Disk) (path : Text) : Except ConfigError (Option Settings) :=
  if !d.exists? path then .ok none
  else
    match d.readText path with
    | .error fault => .error (.unreadable path fault)
    | .ok t =>
      match parse? t with
      | some s => .ok (some s)
      | none => .error (.malformed path)

def loadFrom (env : Environment) (d : Disk) (path : Text) : Except ConfigError (Option Settings) :=
  readFile d (env.expand path)

def loadRequired (env : Environment) (d : Disk) (path : Text) : Except ConfigError Settings :=
  match loadFrom env d path with
  | .error e => .error e
  | .ok (some s) => .ok s
  | .ok none => .error (.notFound (env.expand path))

/-- Where settings are looked for if no file is named. -/
def defaultPath (env : Environment) : Text :=
  Path.join (env.expandTilde "~/.config/mdfmt".toList) "config.toml".toList

def load (env : Environment) (d : Disk) : Except ConfigError (Option Settings) :=
  loadFrom env d (defaultPath env)

end Settings
end CanonMark
