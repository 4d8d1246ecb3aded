import RecordTree.Path

/-!
# Paths of the operating system

Paths as the operating system is given them: texts that are joined and cut without asking what they lead
to. Nothing is cleaned; only slashes and single dots at the end of a directory's path are dropped.
-/

namespace RecordTree.SystemPath

/-- A path that starts from a directory. A path that starts from the root of the system does so in any
case. -/
def join (dir path : String) : String :=
  if dir.isEmpty ∨ path.startsWith "/" then path
  else if dir.endsWith "/" then dir ++ path
  else dir ++ "/" ++ path

/-- Drops the parts that say nothing from the reversed parts of a path. The first part always says where
the path starts. -/
def trimParts : List Path.Component → List Path.Component
  | part :: first :: parts =>
    if part = [] ∨ part = Path.here then trimParts (first :: parts) else part :: first :: parts
  | parts => parts

/-- The reversed parts of a path, of which the first is its last name. -/
def parts (path : String) : List Path.Component := trimParts (Path.split path.toList).reverse

/-- The path of the directory that a path leads into. The start of a path has none. -/
def parent? (path : String) : Option String :=
  match parts path with
  | [] => none
  | [part] => if part = [] then none else some ""
  | _ :: above =>
    match trimParts above with
    | [[]] => some "/"
    | above => some (String.ofList (Path.joinAll above.reverse))

/-- What stands behind the last dot of a name, unless the dot is its first character. -/
def extensionOf? (name : List Char) : Option (List Char) :=
  let behind := name.reverse.takeWhile (· ≠ '.')
  if name = Path.above ∨ name.length ≤ behind.length + 1 then none else some behind.reverse

/-- The extension of the last name in a path. -/
def extension? (path : String) : Option String :=
  match parts path with
  | name :: _ => (extensionOf? name).map String.ofList
  | [] => none

end RecordTree.SystemPath
