import RecordTree.Cli.Arguments
import RecordTree.SystemPath
import RecordTree.Toml.Document
import RecordTree.Toml.Field
import RecordTree.Tree

/-!
# Settings of the command line program

Where the record tree and its definition are, and who the author is: each from an option, else from the
configuration file. Paths in the file start from the directory that it is in.
-/

namespace RecordTree.Cli

/-- What the program is told about where and for whom it works. -/
structure Settings where
  root : Option String
  definition : Option String
  author : Option String
  deriving DecidableEq, Repr

/-- What is wrong with a configuration file. -/
inductive SettingsError where
  /-- The file cannot be read as text. -/
  | unreadable
  /-- The text is no configuration. -/
  | malformed
  deriving DecidableEq, Repr

namespace Settings

/-- Nothing is set. -/
def empty : Settings := ⟨none, none, none⟩

/-- The settings in a table, which has no other names in it. -/
def ofTable? (t : Toml.Table) : Option Settings :=
  if t.all fun (name, _) => name = "root" || name = "definition" || name = "author" then do
    return {
      root := ← t.optional "root" Toml.Value.string?
      definition := ← t.optional "definition" Toml.Value.string?
      author := ← t.optional "author" Toml.Value.string? }
  else none

/-- The settings with paths that start from the directory of a file. -/
def below (s : Settings) (path : String) : Settings :=
  match SystemPath.parent? path with
  | some dir =>
    { s with root := s.root.map (SystemPath.join dir), definition := s.definition.map (SystemPath.join dir) }
  | none => s

/-- The settings in what is found at the path of the configuration file. There need not be anything. -/
def ofFound (path : String) : Except Absence Tree → Except SettingsError Settings
  | .error _ => .ok empty
  | .ok (.dir _) => .error .unreadable
  | .ok (.file content) =>
    match String.fromUTF8? content with
    | none => .error .unreadable
    | some text =>
      match (Toml.read? text).bind ofTable? with
      | none => .error .malformed
      | some s => .ok (s.below path)

/-- The settings with what the options say instead. -/
def override (s : Settings) (o : Options) : Settings where
  root := o.root <|> s.root
  definition := o.definition <|> s.definition
  author := o.author <|> s.author

end Settings

end RecordTree.Cli
