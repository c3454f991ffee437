import CanonMark.Text.Basic

/-! # Command line

Options and paths may be mixed. Arguments are read in order and the first problem decides.
-/
namespace CanonMark.Command

structure Arguments where
  paths : List Text
  cols : Option Nat
  write : Bool
  list : Bool
  config : Option Text
  deriving DecidableEq, Repr

inductive Request where
  | run (arguments : Arguments)
  | version
  | help
  | usageError
  deriving DecidableEq, Repr

/-- The long spelling of `-cols`, which may stand with one dash before the separator. -/
def normalArgument (argument : Text) : Text :=
  if argument == "-cols".toList || "-cols=".toList.isPrefixOf argument then '-' :: argument
  else argument

def widthBound : Nat := 18446744073709551616

/-- A width: decimal digits, perhaps behind a plus sign. -/
def width? (t : Text) : Option Nat :=
  let digits := if t.head? == some '+' then t.drop 1 else t
  let n := Text.value 10 digits
  if !digits.isEmpty && digits.all Text.isDigit && n < widthBound then some n else none

inductive Setting where
  | cols
  | config
  deriving DecidableEq, Repr

/-- Sets a value. An option may be given once. -/
def assign (a : Arguments) (value : Text) : Setting → Option Arguments
  | .cols =>
    if a.cols.isSome then none else (width? value).map fun n => { a with cols := some n }
  | .config =>
    if a.config.isSome || value.isEmpty then none else some { a with config := some value }

inductive Progress where
  | reading (a : Arguments)
  | waiting (a : Arguments) (setting : Setting)
  | pathsOnly (a : Arguments)
  | done (request : Request)
  deriving DecidableEq, Repr

def Progress.ofOption : Option Arguments → Progress
  | some a => .reading a
  | none => .done .usageError

def readLetters (a : Arguments) : Text → Progress
  | [] => .reading a
  | 'w' :: t => if a.write then .done .usageError else readLetters { a with write := true } t
  | 'l' :: t => if a.list then .done .usageError else readLetters { a with list := true } t
  | 'V' :: _ => .done .version
  | 'h' :: _ => .done .help
  | 'c' :: [] => .waiting a .cols
  | 'c' :: '=' :: value => .ofOption (assign a value .cols)
  | 'c' :: value => .ofOption (assign a value .cols)
  | _ => .done .usageError

def readName (a : Arguments) (t : Text) : Progress :=
  let name := t.takeWhile (· != '=')
  let value? := (t.drop name.length).tail?
  let setting (s : Setting) : Progress :=
    match value? with
    | some value => .ofOption (assign a value s)
    | none => .waiting a s
  if name == "cols".toList then setting .cols
  else if name == "config".toList then setting .config
  else if name == "version".toList && value?.isNone then .done .version
  else if name == "help".toList && value?.isNone then .done .help
  else .done .usageError

def addPath (a : Arguments) (path : Text) : Option Arguments :=
  if path.isEmpty then none else some { a with paths := a.paths ++ [path] }

/-- Whether an argument is read as options. A dash alone is a path. -/
def isOption (argument : Text) : Bool := argument.head? == some '-' && argument.length > 1

def readArgument (p : Progress) (argument : Text) : Progress :=
  match p with
  | .done request => .done request
  | .pathsOnly a =>
    match addPath a argument with
    | some a => .pathsOnly a
    | none => .done .usageError
  | .waiting a setting =>
    let argument := normalArgument argument
    if isOption argument then .done .usageError else .ofOption (assign a argument setting)
  | .reading a =>
    let argument := normalArgument argument
    if argument == "--".toList then .pathsOnly a
    else
      match Text.after? "--".toList argument with
      | some name => readName a name
      | none =>
        if isOption argument then readLetters a (argument.drop 1)
        else .ofOption (addPath a argument)

def Progress.request : Progress → Request
  | .reading a => .run a
  | .pathsOnly a => .run a
  | .waiting _ _ => .usageError
  | .done request => request

def request (arguments : List Text) : Request :=
  (arguments.foldl readArgument (.reading ⟨[], none, false, false, none⟩)).request

end CanonMark.Command
