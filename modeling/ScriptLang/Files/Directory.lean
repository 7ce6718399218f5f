import ScriptLang.Files.Access
import ScriptLang.Files.PathText

/-!
# Directories of a running program

Making directories together with those above them, and removing them together with what is in them.
-/

namespace ScriptLang.Action

/-- Replaces the file system by the result of an operation at a path. -/
def changeFiles (path : String) (op : FileSystem → Path → Except FileError FileSystem) :
    Routine Unit := do
  let w ← get
  let files ← ofFile path (op w.files w.cwd)
  set { w with files }

/-- Makes the last directory of a path, unless it is there. -/
def makeLast (path : String) : Routine Unit := do
  let w ← get
  if path.toList.contains '\x00' then valueFault "embedded null byte"
  unless w.files.isDirectory w.cwd path do
    changeFiles path fun fs cwd => fs.makeDirectory cwd path

/-- Makes directories, at most the given number of them: those above the last one too, and none of
them has to be new. -/
def makeDirectoriesUpTo : Nat → String → Routine Unit
  | 0, _ => pure ()
  | n + 1, path => do
      let (head, tail) := PathText.split path
      let (head, tail) := if tail.isEmpty then PathText.split head else (head, tail)
      let w ← get
      let above := !head.isEmpty && !tail.isEmpty && !w.files.present w.cwd head
      if above then makeDirectoriesUpTo n head
      unless above && tail == "." do makeLast path

/-- Makes directories: those above the last one too, and none of them has to be new. -/
def makeDirectories (path : String) : Routine Unit :=
  makeDirectoriesUpTo (path.length + 1) path

/-- Makes a directory, which must be new, and those above it. -/
def makeNewDirectory (path : String) : Routine Unit := do
  let w ← get
  if w.files.present w.cwd path then fail (FileError.exists.fault path)
  else makeDirectories path

/-- Removes a directory and everything in it. A directory that is named by dots loses only what is
in it. -/
def removeTree (path : String) : Routine Unit := do
  let w ← get
  match ← ofFile path (w.files.find w.cwd path) with
  | (_, .file ..) => fail (FileError.notDirectory.fault path)
  | (p, .directory) =>
      set { w with files := w.files.clear p }
      changeFiles path fun fs cwd => fs.removeDirectory cwd path

end ScriptLang.Action
