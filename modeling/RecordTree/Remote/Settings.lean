import RecordTree.Store.Error
import RecordTree.Text.Blank
import RecordTree.Toml.Document
import RecordTree.Toml.Field

/-!
# Settings of a remote store

What a client of a remote store has to know. The owner and the name of the repository must not be blank;
an access token is never shown.
-/

namespace RecordTree

/-- What a client of a remote store has to know. -/
structure RemoteSettings where
  owner : String
  repository : String
  branch : String
  /-- The access token. -/
  token : Option String
  /-- Where the store is reached, if it is not the usual place. -/
  baseUrl : Option String
  deriving DecidableEq

namespace RemoteSettings

/-- The branch that is meant when none is named. -/
def defaultBranch : String := "main"

/-- Where a store is usually reached. -/
def defaultUrl : String := "https://api.github.com"

/-- The settings for a repository, with all else left as usual. -/
def new (owner repository : String) : RemoteSettings := ⟨owner, repository, defaultBranch, none, none⟩

/-- The settings if they are usable. -/
def validate (s : RemoteSettings) : Except StoreError RemoteSettings :=
  if Text.isAllBlank s.owner then .error (.config "owner must not be empty")
  else if Text.isAllBlank s.repository then .error (.config "repository must not be empty")
  else .ok s

/-- The settings in a table. -/
def ofTable? (t : Toml.Table) : Option RemoteSettings := do
  return {
    owner := ← t.required "owner" Toml.Value.string?
    repository := ← t.required "repository" Toml.Value.string?
    branch := ← t.field "branch" defaultBranch Toml.Value.string?
    token := ← t.optional "token" Toml.Value.string?
    baseUrl := ← t.optional "api_base_url" Toml.Value.string? }

/-- The settings that a TOML text holds. -/
def ofToml (text : String) : Except StoreError RemoteSettings :=
  match (Toml.read? text).bind ofTable? with
  | some s => s.validate
  | none => .error (.config "<parser>")

/-- Where the store is reached, without a slash at the end. -/
def url (s : RemoteSettings) : String :=
  String.ofList ((s.baseUrl.getD defaultUrl).toList.reverse.dropWhile (· = '/')).reverse

/-- The repository and the branch in one word. -/
def slug (s : RemoteSettings) : String := s.owner ++ "/" ++ s.repository ++ "@" ++ s.branch

/-- A text that may be missing, as it is shown to a programmer. -/
def describeOption : Option String → String
  | some s => "Some(" ++ Text.quote s ++ ")"
  | none => "None"

/-- The settings as they are shown to a programmer. -/
def describe (s : RemoteSettings) : String :=
  "RemoteConfig \x7b owner: " ++ Text.quote s.owner ++ ", repository: " ++ Text.quote s.repository ++
    ", branch: " ++ Text.quote s.branch ++
    ", token: " ++ describeOption (s.token.map fun _ => "<redacted>") ++
    ", api_base_url: " ++ describeOption s.baseUrl ++ " \x7d"

end RemoteSettings

end RecordTree
