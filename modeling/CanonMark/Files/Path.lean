import CanonMark.Text.Basic

/-! # Paths

A path is kept as it is written, because messages show it so. Its steps are what the file system
follows; its components are the names it is compared and taken apart by. Paths are Unicode text
only: a name of other bytes is none here.
-/
namespace CanonMark.Path

def isAbsolute (path : Text) : Bool := path.head? == some '/'

/-- The names between slashes. A slash at the end leaves an empty last step, which only a directory
can be followed by. -/
def steps (path : Text) : List Text :=
  let pieces := Text.splitOn '/' path
  pieces.dropLast.filter (fun p => !p.isEmpty) ++ pieces.getLast?.toList

/-- The names of a path without those that lead nowhere; a dot counts only at the front. -/
def components (path : Text) : List Text :=
  let names := (Text.splitOn '/' path).filter fun p => !p.isEmpty
  match names with
  | first :: rest =>
    let rest := rest.filter (· != ['.'])
    if first == ['.'] && isAbsolute path then rest else first :: rest
  | [] => []

def parent? (path : Text) : Option (List Text) :=
  let names := components path
  if names.isEmpty then none else some names.dropLast

/-- What stands behind the last dot of a name that does not begin with it. -/
def extensionOf? (name : Text) : Option Text :=
  let after := (name.reverse.takeWhile (· != '.')).reverse
  let before := name.take (name.length - after.length - 1)
  if before.isEmpty || name == ['.', '.'] then none else some after

def extension? (path : Text) : Option Text :=
  match (components path).getLast? with
  | some name => if name == ['.'] then none else extensionOf? name
  | none => none

def isMarkdownName (name : Text) : Bool := extensionOf? name == some "md".toList

def isMarkdown (path : Text) : Bool := extension? path == some "md".toList

def join (path name : Text) : Text :=
  if path.isEmpty || path.getLast? == some '/' then path ++ name else path ++ '/' :: name

/-- Names are ordered by their characters, which is also the order of their bytes. -/
def nameLess (a b : Text) : Bool := a.lex b fun c d => c.toNat < d.toNat

def less (p q : List Text) : Bool := p.lex q nameLess

def lessEq (p q : List Text) : Bool := !less q p

end CanonMark.Path
