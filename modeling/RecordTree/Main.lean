import RecordTree.Cli.Run

/-!
# The program

The way between a run and the operating system: what is at a path, what time it is, whether colours are
wanted, and how the record tree comes to be what the run says.
-/

namespace RecordTree.Cli

/-- What is at a path of the operating system. -/
partial def look (path : String) : IO (Except Absence Tree) := do
  if path.isEmpty then return .error .missing
  try
    let place := (← IO.currentDir) / path
    if ← place.isDir then
      let mut entries : List (String × Tree) := []
      for entry in ← place.readDir do
        match ← look (SystemPath.join path entry.fileName) with
        | .ok t => entries := Entries.insert entry.fileName t entries
        | .error _ => pure ()
      return .ok (.dir entries)
    else return .ok (.file (← IO.FS.readBinFile place))
  catch
    | .noFileOrDirectory _ _ _ => return .error .missing
    | _ => return .error .refused

/-- Writes a file and puts it in its place in one step. -/
def putFile (path : String) (content : ByteArray) : IO Unit := do
  let draft := path ++ "~"
  IO.FS.writeBinFile draft content
  IO.FS.rename draft path

/-- Makes what is at a path what a tree says. What a store keeps for itself comes last. -/
partial def save (path : String) (old : Option Tree) : Tree → IO Unit
  | .file content => do
    if let some (.file before) := old then
      if before = content then return
    putFile path content
  | .dir entries => do
    IO.FS.createDirAll path
    let before := match old with
      | some (.dir before) => before
      | _ => []
    for (name, _) in before do
      if (Entries.find? name entries).isNone then IO.FS.removeFile (SystemPath.join path name)
    let (kept, others) := entries.partition fun (name, _) => name = DirectoryStore.metaName
    for (name, t) in others ++ kept do
      save (SystemPath.join path name) (Entries.find? name before) t

/-- The time, as a new file has it. -/
def now : IO Instant := do
  let (_, path) ← IO.FS.createTempFile
  let time := (← path.metadata).modified
  IO.FS.removeFile path
  return ⟨time.sec, time.nsec.toNat⟩

end RecordTree.Cli

open RecordTree.Cli in
/-- Runs the program and makes the record tree what the run says. -/
def main (args : List String) : IO UInt32 := do
  let out ← IO.getStdout
  let isColored := Style.isWanted (← IO.getEnv "CLICOLOR_FORCE") (← IO.getEnv "NO_COLOR")
    (← IO.getEnv "CLICOLOR") (← out.isTty)
  let ending ← run look (← now) isColored args
  if let some store := ending.store then
    save store.root (← look store.root).toOption store.tree
  out.putStr ending.out
  (← IO.getStderr).putStr ending.err
  return ending.status
