/-!
Paths: the names that lead to a file or a folder, and the texts that state them. One path has many
texts, for slashes may be repeated or stand at the end, and a dot between slashes leads nowhere.
-/

namespace Atelier

/-- The names on the way from the outermost folder to a file or a folder. -/
abbrev Path := List String

namespace Path

def text (p : Path) : String :=
  "/".intercalate p

/-- The text of a path behind a directory that is given as a text, which may end in a slash. -/
def under (dir : String) (p : Path) : String :=
  if dir.isEmpty || dir.endsWith "/" then dir ++ p.text else dir ++ "/" ++ p.text

/-- One more step on a path. Two dots lead back to where the last name came from. -/
def step (p : Path) : String → Path
  | ""   => p
  | "."  => p
  | ".." => p.dropLast
  | name => p ++ [name]

/-- The path that a text states. -/
def ofText (s : String) : Path :=
  (s.splitOn "/").foldl step []

end Path

/-- A directory anywhere, as it is stated. -/
structure Directory where
  text : String

namespace Directory

/-- Where the text starts, if it says so, and all that it names. -/
def parts (d : Directory) : List String :=
  let names := (d.text.splitOn "/").filter fun name => name != "" && name != "."
  match d.text.toList with
  | '/' :: _ => "/" :: names
  | ['.'] | '.' :: '/' :: _ => "." :: names
  | _ => names

/-- Directories are the same when they are stated with the same parts. -/
instance : BEq Directory :=
  ⟨fun d e => d.parts == e.parts⟩

end Directory

end Atelier
