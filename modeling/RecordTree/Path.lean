/-!
# Paths

A path is cut at its slashes into components. Empty components and `.` say nothing, `..` takes back
the name before it, and everything else is a name. `clean` writes what is left in one canonical
form; `normalize?` does so for paths inside a store, which is its own root, and refuses a path that
climbs out of it.

The work is done on lists of components; the functions on `String` only cut and join.
-/

namespace RecordTree.Path

/-- A component of a path. -/
abbrev Component := List Char

/-- The component for the directory itself. -/
def here : Component := ['.']

/-- The component for the directory above. -/
def above : Component := ['.', '.']

/-! ### Components -/

/-- Cuts a text at every slash. -/
def split : List Char → List Component
  | [] => [[]]
  | c :: cs =>
    if c = '/' then [] :: split cs
    else match split cs with
      | [] => [[c]]
      | part :: parts => (c :: part) :: parts

/-- Joins components by slashes. -/
def joinAll : List Component → List Char
  | [] => []
  | [part] => part
  | part :: parts => part ++ '/' :: joinAll parts

/-- Adds a component to a cleaned path, whose last component stands first. A step up takes back a
name; at the root it is lost, and elsewhere it stays. -/
def push (rooted : Bool) (stack : List Component) (part : Component) : List Component :=
  if part = [] ∨ part = here then stack
  else if part = above then
    match stack with
    | last :: rest => if last ≠ above then rest else if rooted then stack else above :: stack
    | [] => if rooted then [] else [above]
  else part :: stack

/-- The components that are left when every step up has taken back the name before it. -/
def reduce (rooted : Bool) (parts : List Component) : List Component :=
  (parts.foldl (push rooted) []).reverse

/-- The canonical form of a path. -/
def cleanChars (path : List Char) : List Char :=
  let rooted := path.head? = some '/'
  let body := joinAll (reduce rooted (split path))
  if rooted then '/' :: body else if body = [] then here else body

/-- The canonical form of a path: no empty component, no `.`, and `..` only in front. -/
def clean (path : String) : String := String.ofList (cleanChars path.toList)

/-! ### Paths in a store -/

/-- Whether a cleaned path begins with a step up. -/
def climbs (path : List Char) : Bool :=
  match path with
  | '.' :: '.' :: [] => true
  | '.' :: '.' :: '/' :: _ => true
  | _ => false

/-- The canonical form of a path inside a store, with its leading slashes dropped, or nothing if the
path leaves the store. -/
def normalize? (path : String) : Option String :=
  let cleaned := cleanChars (path.toList.dropWhile (· = '/'))
  if climbs cleaned then none else some (String.ofList cleaned)

/-! ### Record file names -/

/-- What a record's key stands in for in a file name template. -/
def placeholder : String := "\x7bkey\x7d"

/-- Replaces every placeholder, from left to right. -/
def fill (key : List Char) : List Char → List Char
  | '\x7b' :: 'k' :: 'e' :: 'y' :: '\x7d' :: cs => key ++ fill key cs
  | c :: cs => c :: fill key cs
  | [] => []

/-- Whether a text holds a placeholder. -/
def hasPlaceholder : List Char → Bool
  | '\x7b' :: 'k' :: 'e' :: 'y' :: '\x7d' :: _ => true
  | _ :: cs => hasPlaceholder cs
  | [] => false

/-- Puts a directory before a name; an empty one of them is left out. -/
def joinChars (dir name : List Char) : List Char :=
  if dir = [] then name else if name = [] then dir else dir ++ '/' :: name

/-- The path of the file that holds the record with the given key. -/
def ofRecord (dir template key : String) : String :=
  String.ofList (cleanChars (joinChars dir.toList (fill key.toList template.toList)))

end RecordTree.Path
