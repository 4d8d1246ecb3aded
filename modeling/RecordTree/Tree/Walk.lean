import RecordTree.Path
import RecordTree.Tree

/-!
# Walking through a file system

A path that the operating system is given is walked step by step: every step but the last has to come
to a directory, `..` goes back to the directory above, and a slash at the end asks for a directory. A
path that begins with a slash is walked from the top of the file system, and any other one from the
working directory. The directory above the top is the top itself.
-/

namespace RecordTree

/-- Walks on through a tree from a place, given with the last name first. -/
def Tree.walkFrom (t : Tree) : List String → List Path.Component → Except Absence (List String)
  | place, [] => .ok place.reverse
  | place, step :: steps =>
    match t.find place.reverse with
    | .error e => .error e
    | .ok (.file _) => .error .refused
    | .ok (.dir _) =>
      if step = [] ∨ step = Path.here then walkFrom t place steps
      else if step = Path.above then walkFrom t place.tail steps
      else walkFrom t (String.ofList step :: place) steps

/-- A file system as a process sees it. -/
structure FileSystem where
  /-- All that there is. -/
  tree : Tree
  /-- The place of the working directory. -/
  workdir : List String

namespace FileSystem

/-- The place from which a path is walked. -/
def origin (fs : FileSystem) (path : String) : List String :=
  if path.toList.head? = some '/' then [] else fs.workdir

/-- The place at which a walk along a path ends. -/
def walk (fs : FileSystem) (path : String) : Except Absence (List String) :=
  if path.isEmpty then .error .missing
  else if path.toList.contains '\x00' then .error .refused
  else fs.tree.walkFrom (fs.origin path).reverse (Path.split path.toList)

/-- What is at the end of a walk. -/
def reach (fs : FileSystem) (path : String) : Except Absence Tree := do fs.tree.find (← fs.walk path)

/-- The file system with a tree in the place of what is there. -/
def replace (fs : FileSystem) (place : List String) (new : Tree) : FileSystem :=
  { fs with tree := fs.tree.replace place new }

end FileSystem

end RecordTree
