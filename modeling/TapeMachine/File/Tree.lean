/-
# File trees

Some files and directories below a working directory. A path is followed name by name: whatever a
further name is looked up in has to be a directory, also when the name is empty because the path
ends in a slash. Above the working directory there are directories, but nothing else is known to
be there.
-/

import TapeMachine.File.Access
import TapeMachine.File.Path

namespace TapeMachine

structure FileTree where
  /-- The files, by the names that lead to them. -/
  files : List (List String × List UInt8)
  directories : List (List String)

namespace FileTree

/-- Where a path has led. -/
inductive Place where
  /-- Some directory above the working directory, or the root. -/
  | above
  /-- Below the working directory; the names lead there in reverse. -/
  | below (names : List String)

def contents? (tree : FileTree) (names : List String) : Option (List UInt8) :=
  (tree.files.find? (·.1 = names)).map (·.2)

/-- Whether names lead to a directory: one that is listed, or one that something is in. -/
def isDirectory (tree : FileTree) (names : List String) : Bool :=
  names.isEmpty || tree.directories.any (names.isPrefixOf ·) ||
    tree.files.any fun (file, _) => names.isPrefixOf file && file ≠ names

def hasDirectory (tree : FileTree) : Place → Bool
  | .above => true
  | .below names => tree.isDirectory names.reverse

/-- The longest name of a file, in bytes. -/
def nameLimit : Nat := 255

/-- The longest path, in bytes. -/
def pathLimit : Nat := 4095

/-- The place that a name leads to from a directory. -/
def enter (tree : FileTree) (place : Place) (name : String) : Except OpenError Place :=
  match name, place with
  | "", _ => .ok place
  | ".", _ => .ok place
  | "..", .above => .ok .above
  | "..", .below [] => .ok .above
  | "..", .below (_ :: names) => .ok (.below names)
  | _, _ =>
      if nameLimit < name.utf8ByteSize then .error .nameTooLong
      else
        match place with
        | .above => .error .notFound
        | .below names =>
            let there := (name :: names).reverse
            if tree.isDirectory there || (tree.contents? there).isSome then
              .ok (.below (name :: names))
            else
              .error .notFound

def follow (tree : FileTree) : Place → List String → Except OpenError Place
  | place, [] => .ok place
  | place, name :: names =>
      if tree.hasDirectory place then
        match tree.enter place name with
        | .ok place => tree.follow place names
        | .error error => .error error
      else
        .error .notDirectory

/-- The place that a path names. An empty path names none. -/
def locate (tree : FileTree) (path : String) : Except OpenError Place :=
  if path = "" then .error .notFound
  else if pathLimit < path.utf8ByteSize then .error .nameTooLong
  else if path.toList.head? = some '/' then tree.follow .above (Path.names path)
  else tree.follow (.below []) (Path.names path)

def read (tree : FileTree) : FileSystem := fun path =>
  if path.toList.contains '\x00' then .error .embeddedNul
  else
    match tree.locate path with
    | .error error => .error (.system error)
    | .ok .above => .error (.system .isDirectory)
    | .ok (.below names) =>
        match tree.contents? names.reverse with
        | some contents => .ok contents
        | none => .error (.system .isDirectory)

end FileTree

end TapeMachine
