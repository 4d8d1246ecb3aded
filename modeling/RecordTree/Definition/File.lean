import RecordTree.Definition.Toml
import RecordTree.Definition.Yaml
import RecordTree.SystemPath

/-!
# Definition files

A definition file is in YAML or in TOML, as the extension of its name says. What the file holds is looked
at first: one that cannot be read is refused whatever it is called.
-/

namespace RecordTree.Definition

/-- The definition that a text describes, in the format of an extension. -/
def ofText (extension : Option String) (text : String) : Except DefinitionError Definition :=
  if extension = some "yaml" ∨ extension = some "yml" then ofYaml text
  else if extension = some "toml" then ofToml text
  else .error (.unknownExtension (extension.getD ""))

/-- The definition in a file with the given content, if there is the file. -/
def ofFile (path : String) (content : Option ByteArray) : Except DefinitionError Definition :=
  match content.bind String.fromUTF8? with
  | some text => ofText (SystemPath.extension? path) text
  | none => .error .unreadableFile

end RecordTree.Definition
