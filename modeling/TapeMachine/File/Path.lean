/-
# Paths

A path is names between slashes. Its normal form has no empty names and no `.`, so repeated and
trailing slashes vanish; `..` stays, because it may lead elsewhere through a link.
-/

namespace TapeMachine.Path

/-- What stands between the slashes of a path. -/
def names (path : String) : List String :=
  (path.toList.splitOn '/').map String.ofList

/-- The slashes that a normal form begins with. Exactly two are not the same as one. -/
def root (path : String) : String :=
  match path.toList with
  | '/' :: '/' :: '/' :: _ => "/"
  | '/' :: '/' :: _ => "//"
  | '/' :: _ => "/"
  | _ => ""

def normalise (path : String) : String :=
  let normal := root path ++ "/".intercalate ((names path).filter fun name =>
    name ≠ "" && name ≠ ".")
  if normal = "" then "." else normal

end TapeMachine.Path
