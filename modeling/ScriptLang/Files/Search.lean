import ScriptLang.Files.PathText
import ScriptLang.Text.Glob

/-!
# Searching files

The files below a directory, and the paths that match a pattern.
-/

namespace ScriptLang.FileSystem

open ScriptLang.Text

/-- The paths of all files below a directory; none when there is no such directory. -/
def filesBelow (fs : FileSystem) (cwd : Path) (directory : String) : List String :=
  match fs.find cwd directory with
  | .ok (p, .directory) =>
      (fs.below p).filterMap fun e =>
        match e.2 with
        | .file .. => some (PathText.join directory (String.intercalate "/" e.1))
        | .directory => none
  | _ => []

def isHidden (name : String) : Bool :=
  name.startsWith "."

/-- The names in a directory that match a pattern; hidden ones only when the pattern asks for them,
and only directories when so wanted. -/
def namesMatching (fs : FileSystem) (cwd : Path) (directoriesOnly : Bool)
    (directory pattern : String) : List String :=
  match fs.find cwd (if directory.isEmpty then "." else directory) with
  | .ok (p, .directory) =>
      (fs.children p).filter fun name =>
        (isHidden pattern || !isHidden name) && matchesGlob pattern name
          && (!directoriesOnly || fs.isDirectory [] (p ++ [name]).text)
  | _ => []

/-- The paths that match a pattern, in which every name can be one; looks at `fuel` names at
most. -/
def globFrom (fs : FileSystem) (cwd : Path) : Nat → Bool → String → List String
  | 0, _, _ => []
  | n + 1, directoriesOnly, path =>
      let (head, name) := PathText.split path
      if !isPattern path then
        if if name.isEmpty then fs.isDirectory cwd head else fs.present cwd path then [path] else []
      else if head.isEmpty then namesMatching fs cwd directoriesOnly "" name
      else
        let heads := if isPattern head then globFrom fs cwd n true head else [head]
        heads.flatMap fun d =>
          let names :=
            if isPattern name then namesMatching fs cwd directoriesOnly d name
            else if if name.isEmpty then fs.isDirectory cwd d
              else fs.present cwd (PathText.join d name) then [name]
            else []
          names.map (PathText.join d)

def glob (fs : FileSystem) (cwd : Path) (pattern : String) : List String :=
  globFrom fs cwd (pattern.length + 1) false pattern

end ScriptLang.FileSystem
