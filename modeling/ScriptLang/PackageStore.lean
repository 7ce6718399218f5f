import ScriptLang.Files.Directory
import ScriptLang.Files.Document

/-!
# Installed packages

A package is installed when the store, a directory in the user's own one, has an entry of its name.
-/

namespace ScriptLang.PackageStore

open ScriptLang.Action

def directory : Routine String := do
  return (← get).home.text ++ "/.zenpkgs"

def pathOf (name : String) : Routine String := do
  return PathText.join (← directory) name

/-- Installs a package: a directory with a description in it. -/
def install (name : String) : Routine Unit := do
  makeDirectories (← directory)
  let path ← pathOf name
  if ← pathPresent (.text path) then printLine ("Package '" ++ name ++ "' already installed")
  else
    makeDirectories path
    let description ← objectOf
      [("name", .text name), ("version", .text "1.0.0"), ("installed", .bool true)]
    writeJson (.text (PathText.join path "package.json")) description
    printLine ("✓ Installed package: " ++ name)

def remove (name : String) : Routine Unit := do
  let path ← pathOf name
  if ← pathPresent (.text path) then
    removeTree path
    printLine ("✓ Removed package: " ++ name)
  else printLine ("Package '" ++ name ++ "' not installed")

def installed : Routine (List String) := do
  let path ← directory
  let w ← get
  if w.files.present w.cwd path then
    match ← ofFile path (w.files.find w.cwd path) with
    | (p, .directory) => return w.files.children p
    | (_, .file ..) => fail (FileError.notDirectory.fault path)
  else return []

def list : Routine Unit := do
  match ← installed with
  | [] => printLine "No packages installed"
  | names =>
      printLine "Installed packages:"
      names.forM fun name => printLine ("  - " ++ name)

end ScriptLang.PackageStore
