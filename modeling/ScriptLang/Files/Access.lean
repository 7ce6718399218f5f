import ScriptLang.Value.Access

/-!
# Files of a running program

Reading and writing files from actions: paths are values, and failures become faults that name the
path.
-/

namespace ScriptLang

open ScriptLang.Action ScriptLang.Text

def FileError.kind : FileError → FaultKind
  | .missing => .fileMissing
  | .notDirectory => .notDirectory
  | .isDirectory => .isDirectory
  | .exists => .fileExists
  | .notEmpty | .invalid => .system

def FileError.fault (e : FileError) (path : String) : Fault :=
  .other e.kind (s!"[Errno {e.number}] " ++ e.text ++ ": " ++ quoted path)

namespace Action

def ofFile {α : Type} (path : String) (r : Except FileError α) : Routine α :=
  match r with
  | .ok a => return a
  | .error e => fail (e.fault path)

def pathText (v : Value) : Routine String :=
  match v with
  | .text s => return s
  | .bytes b =>
      match decodeUtf8 b with
      | .ok s => return s
      | .error e => fail (.other .decoding e.message)
  | v => typeFault ("expected str, bytes or os.PathLike object, not " ++ v.typeName)

/-- The path of a file to be opened. Whole numbers stand for files that are open already, and none
is. -/
def openPath (v : Value) : Routine String :=
  match v with
  | .text s => if s.toList.contains '\x00' then valueFault "embedded null byte" else return s
  | .bool _ => fail (.other .system "[Errno 9] Bad file descriptor")
  | .int n =>
      if n < 0 then valueFault "negative file descriptor"
      else if n < 0x80000000 then fail (.other .system "[Errno 9] Bad file descriptor")
      else pathText v
  | v => pathText v

def readBytes (path : String) : Routine ByteArray := do
  let w ← get
  ofFile path (w.files.read w.cwd path)

def decodeText (b : ByteArray) : Routine String :=
  match decodeUtf8 b.toList with
  | .ok s => return s
  | .error e => fail (.other .decoding e.message)

/-- The text of a file, every line end a line feed. -/
def readText (path : String) : Routine String := do
  let s ← decodeText (← readBytes path)
  return String.ofList (unifyLineEnds s.toList)

def writeBytes (path : String) (content : ByteArray) : Routine Unit := do
  let w ← get
  let files ← ofFile path (w.files.write w.cwd path content w.clock)
  set { w with files }

def writeText (path : String) (content : String) : Routine Unit :=
  writeBytes path content.toUTF8

/-- Opens a file for writing, which empties it, and writes what an action gives; when that is only a
part of what was to be written, fails. -/
def writeThrough (path : Value) (content : Routine (String × Option Fault)) : Routine Unit := do
  let name ← openPath path
  writeText name ""
  let (s, failure) ← content
  writeText name s
  if let some f := failure then fail f

def pathPresent (v : Value) : Routine Bool := do
  match v with
  | .text s => return (← get).files.present (← get).cwd s
  | .int n => return 0 ≤ n && n < 3
  | .bool _ => return true
  | .bytes _ => return (← get).files.present (← get).cwd (← pathText v)
  | v =>
      typeFault ("stat: path should be string, bytes, os.PathLike or integer, not " ++ v.typeName)

end Action

end ScriptLang
