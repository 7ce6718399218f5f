import ScriptLang.Command

/-!
# The program

Runs the command line in a world made from the working directory: its files are read before the
command runs, and those that it changes are written after it.
-/

open ScriptLang

/-- The files below a directory that can be read, with the names that lead to them. -/
partial def readTree (place : String) (names : Path) (fs : FileSystem) : IO FileSystem := do
  let entries ← try (← IO.FS.realPath place).readDir catch _ => pure #[]
  entries.foldlM (fun (fs : FileSystem) entry => do
    let path := names ++ [entry.fileName]
    let inner := place ++ "/" ++ entry.fileName
    if ← entry.path.isDir then readTree inner path (fs.put path .directory)
    else
      try return fs.put path (.file (← IO.FS.readBinFile inner) 0)
      catch _ => return fs) fs

/-- Writes the files that are new or changed, and removes those that are gone. -/
def writeChanges (old new : FileSystem) : IO Unit := do
  for (path, node) in new.nodes do
    match node, old.node? path with
    | .directory, none => IO.FS.createDirAll path.text
    | .file content _, some (.file before _) =>
        unless content.data == before.data do IO.FS.writeBinFile path.text content
    | .file content _, _ => IO.FS.writeBinFile path.text content
    | _, _ => pure ()
  for (path, node) in old.nodes.reverse do
    if (new.node? path).isNone then
      match node with
      | .directory => IO.FS.removeDir path.text
      | .file .. => IO.FS.removeFile path.text

/-- The status that a signal ends the program with, and what it still says. -/
def statusOf (w : World) : Signal → UInt32 × String
  | .exit (.int n) => (n.toNat.toUInt32, "")
  | .exit .null => (0, "")
  | .interrupt => (130, "")
  | .foreign name => (1, "not part of the language: " ++ name)
  | s => (1, s.message w)

def main (words : List String) : IO UInt32 := do
  let cwd : Path := FileSystem.names (← IO.currentDir).toString
  let home : Path := FileSystem.names ((← IO.getEnv "HOME").getD "/")
  let store : Path := home ++ [".zenpkgs"]
  let start := ({} : FileSystem).makeDirs cwd |>.makeDirs home
  let files ← readTree cwd.text cwd start
  let files ← readTree store.text store files
  let reads := words.head? == some "run"
  let input ← if reads then (← IO.getStdin).readToEnd else pure ""
  let world := World.begin {
    files, cwd, home, input := input.toList
    environment := [("HOME", home.text)] }
  let (status, rest, world) :=
    match (Command.performWords words).run world with
    | .ok _ w => ((0 : UInt32), "", w)
    | .error s w =>
        let (status, rest) := statusOf w s
        (status, rest, w)
  (← IO.getStdout).putStr world.out
  unless rest.isEmpty do (← IO.getStderr).putStrLn rest
  writeChanges files world.files
  return status
