import CanonMark.Text.Alphanumeric

/-! # Path expansion

A path may begin with a tilde for the home directory and may name environment variables. If a
variable without a default is not set nothing is expanded. Without braces a name does not begin with
a digit. Variables are Unicode text, as paths are; one that holds other bytes is left out.
-/
namespace CanonMark

structure Environment where
  lookup? : Text → Option Text
  /-- The home directory of the account, for when the variable `HOME` says nothing. -/
  accountHome : Option Text

namespace Environment

def home? (env : Environment) : Option Text :=
  match env.lookup? "HOME".toList with
  | some home => if home.isEmpty then env.accountHome else some home
  | none => env.accountHome

def expandTilde (env : Environment) (path : Text) : Text :=
  match path with
  | '~' :: rest =>
    if rest.head?.all (· == '/') then (env.home?.map (· ++ rest)).getD path else path
  | _ => path

def isNameChar (c : Char) : Bool := Text.isAlphanumeric c || c == '_'
def isNameStart (c : Char) : Bool := isNameChar c && !Text.isDigit c

/-- The value of what stands between braces: a name, or a name with a default. Behind an empty name
there is no default. -/
def braced? (env : Environment) (body : Text) : Option Text :=
  match Text.through? ":-".toList body with
  | some (before, default) =>
    let name := before.take (before.length - 2)
    if name.isEmpty then env.lookup? body else some ((env.lookup? name).getD default)
  | none => env.lookup? body

/-- Replaces variables; fails if one without a default is not set. The fuel bounds the number of
characters left. -/
def expandWith? (env : Environment) : Nat → Text → Option Text
  | 0, t => some t
  | _, [] => some []
  | fuel + 1, '$' :: t =>
    match t with
    | '$' :: t => (env.expandWith? fuel t).map ('$' :: ·)
    | '\x7b' :: inner =>
      let body := inner.takeWhile (· != '\x7d')
      match inner.drop body.length with
      | [] => (env.expandWith? fuel inner).map ('$' :: '\x7b' :: ·)
      | _ :: rest => do
        let value ← env.braced? body
        let rest ← env.expandWith? fuel rest
        some (value ++ rest)
    | c :: _ =>
      if isNameStart c then do
        let name := t.takeWhile isNameChar
        let value ← env.lookup? name
        let rest ← env.expandWith? fuel (t.drop name.length)
        some (value ++ rest)
      else (env.expandWith? fuel t).map ('$' :: ·)
    | [] => some ['$']
  | fuel + 1, c :: t => (env.expandWith? fuel t).map (c :: ·)

def expandVariables? (env : Environment) (t : Text) : Option Text := env.expandWith? t.length t

/-- The path with variables and tilde expanded, or as it is given. A tilde that comes out of a
variable is left alone. -/
def expand (env : Environment) (path : Text) : Text :=
  match env.expandVariables? path with
  | some t => if path.head? == some '~' then env.expandTilde t else t
  | none => path

end Environment
end CanonMark
