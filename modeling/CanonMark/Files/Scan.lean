import CanonMark.Files.Disk

/-! # Finding documents

A search gives the Markdown files at a place and below it, at any depth, each as the names that lead
there from the place. A directory is never one of them, whatever its name. The first directory that
cannot be listed ends the search.
-/
namespace CanonMark.Disk

mutual
def search (d : Disk) (place : List Text) : Entry → Except OsError (List (List Text))
  | .file name _ => .ok (if Path.isMarkdownName name then [[]] else [])
  | .directory _ entries =>
    match d.denial? place with
    | some e => .error e
    | none => searchAmong d place entries

def searchAmong (d : Disk) (place : List Text) : List Entry → Except OsError (List (List Text))
  | [] => .ok []
  | e :: es => do
    let found ← search d (place ++ [e.name]) e
    let more ← searchAmong d place es
    return found.map (e.name :: ·) ++ more
end

end CanonMark.Disk
