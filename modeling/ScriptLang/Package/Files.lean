import ScriptLang.Files.Directory
import ScriptLang.Files.Document
import ScriptLang.Files.Search
import ScriptLang.Format.Archive
import ScriptLang.Format.Csv
import ScriptLang.Library.Functions
import ScriptLang.Package.System

/-!
# Files and directories

Reading, writing, copying and searching files, tables and archives in files, and waiting for a file
to change. Most failures are reported as failures of the operation, with the reason behind it.
-/

namespace ScriptLang.Package

open ScriptLang.Action ScriptLang.Library ScriptLang.Text

/-- The path that an operation is asked to work on. -/
def pathFor (operation kinds : String) (v : Value) : Routine String :=
  match v with
  | .text s => if s.toList.contains '\x00' then valueFault "embedded null byte" else return s
  | .bytes _ => pathText v
  | v => typeFault (operation ++ ": path should be " ++ kinds ++ ", not " ++ v.typeName)

/-- `pathFor` for an operation that also works on files that are open. -/
def pathOrOpen (operation : String) (v : Value) : Routine String :=
  match v with
  | .int n => fail (.other .system s!"[Errno 9] Bad file descriptor: {n}")
  | .bool b => fail (.other .system s!"[Errno 9] Bad file descriptor: {if b then 1 else 0}")
  | v => pathFor operation "string, bytes, os.PathLike or integer" v

def nodeAt (v : Value) : Routine FileNode := do
  let path ← pathOrOpen "stat" v
  let w ← get
  return (← ofFile path (w.files.find w.cwd path)).2

/-- Whether a node is at a path for which a test holds. -/
def nodeHas (test : FileNode → Bool) (v : Value) : Routine Bool := do
  match v with
  | .int _ | .bool _ => return false
  | .text s =>
      let w ← get
      return (w.files.find w.cwd s).toOption.any fun e => test e.2
  | v => return test (← nodeAt v)

def isDirectoryNode : FileNode → Bool
  | .directory => true
  | .file .. => false

def nodeSize : FileNode → Nat
  | .directory => 4096
  | .file content _ => content.size

/-- The time a node was last changed. -/
def nodeTime (clock : Float) : FileNode → Float
  | .directory => clock
  | .file _ modified => modified

/-- Writes a value as text at the end of a file. -/
def appendText (path v : Value) : Routine Unit := do
  let name ← openPath path
  let w ← get
  let old ←
    match w.files.read w.cwd name with
    | .ok b => pure b
    | .error .missing => pure ByteArray.empty
    | .error e => fail (e.fault name)
  writeBytes name old
  writeBytes name (old ++ (← text v).toUTF8)

def linesWithEnds (s : String) : List String :=
  let parts := s.splitOn "\n"
  let whole := parts.dropLast.map (· ++ "\n")
  match parts.getLast? with
  | some last => if last.isEmpty then whole else whole ++ [last]
  | none => whole

/-- The texts that a program writes as lines, up to the first value that is none. -/
def writtenLines : List Value → String × Option Fault
  | [] => ("", none)
  | .text s :: rest =>
      let (t, failure) := writtenLines rest
      (s ++ t, failure)
  | v :: _ => ("", some (.other .type ("write() argument must be str, not " ++ v.argumentType)))

def sameNode (a b : String) : Routine Bool := do
  let w ← get
  match w.files.find w.cwd a, w.files.find w.cwd b with
  | .ok (p, _), .ok (q, _) => return p == q
  | _, _ => return false

/-- Writes what is in a file to another, which is no directory. -/
def writeCopy (source target : String) : Routine Unit := do
  let w ← get
  let content ← readBytes source
  if target.endsWith "/" && !w.files.present w.cwd target then
    match w.files.write w.cwd target content w.clock with
    | .error .isDirectory =>
        fail (.other .fileMissing ("Directory does not exist: " ++ target))
    | _ => writeBytes target content
  else writeBytes target content

/-- Copies a file; into a directory under its own name. -/
def copyFile (source target : String) : Routine Unit := do
  let w ← get
  let target :=
    if w.files.isDirectory w.cwd target then PathText.join target (PathText.baseName source)
    else target
  if ← sameNode source target then
    fail (.other .system (quoted source ++ " and " ++ quoted target ++ " are the same file"))
  else writeCopy source target

/-- Copies a directory and everything in it to a new one. -/
def copyTree (source target : String) : Routine Unit := do
  let w ← get
  match ← ofFile source (w.files.find w.cwd source) with
  | (_, .file ..) => fail (FileError.notDirectory.fault source)
  | (p, .directory) =>
      let nodes := w.files.below p
      makeNewDirectory target
      let w ← get
      let q ← ofFile target (w.files.resolve w.cwd target)
      set { w with
        files := nodes.foldl (fun fs (e : Path × FileNode) => fs.put (q ++ e.1) e.2) w.files }

/-- Moves a file or a directory; into a directory under its own name. -/
def moveNode (source target : String) : Routine Unit := do
  let w ← get
  let into := w.files.isDirectory w.cwd target
  if into && (← sameNode source target) then return ()
  let name := PathText.baseName
    (String.ofList (source.toList.reverse.dropWhile (· == '/')).reverse)
  let place := if into then PathText.join target name else target
  if into && w.files.present w.cwd place then
    fail (.other .system ("Destination path '" ++ place ++ "' already exists"))
  match w.files.rename w.cwd source place with
  | .ok moved => set { w with files := moved }
  | .error _ =>
      if w.files.isDirectory w.cwd source then
        let outer := PathText.absolute w.cwd source
        let inner := PathText.absolute w.cwd target
        if (inner ++ "/").startsWith (if outer.endsWith "/" then outer else outer ++ "/") then
          fail (.other .system
            ("Cannot move a directory '" ++ source ++ "' into itself '" ++ target ++ "'."))
        copyTree source place
        removeTree source
      else
        copyFile source place
        changeFiles source fun fs cwd => fs.removeFile cwd source

/-- The paths of two operands that are copied or moved; what is not a path is refused in the words
of the operation. -/
def operandPaths (operation : String) (source target : Value) : Routine (String × String) := do
  let refuse (which : String) (v : Value) : Routine (String × String) :=
    typeFault (operation ++ which ++ v.typeName)
  match source, target with
  | .text s, .text t =>
      if (s ++ t).toList.contains '\x00' then valueFault "embedded null byte" else return (s, t)
  | .text _, v => refuse ": dst should be string, bytes or os.PathLike, not " v
  | v, _ => refuse ": src should be string, bytes or os.PathLike, not " v

/-- What a table row is when its fields are named by a heading: fields without a name are kept
together under null, and names without a field are null. -/
def namedRow (names row : List String) : Routine Value := do
  let paired : Entries := (names.zip row).foldl
    (fun (acc : Entries) p => acc.put (.text p.1) (.text p.2)) []
  let surplus := row.drop names.length
  let entries ←
    if surplus.isEmpty then
      pure ((names.drop row.length).foldl (fun (acc : Entries) k => acc.put (.text k) .null) paired)
    else do pure (paired.put .null (← arrayOf (surplus.map .text)))
  newObject entries

/-- The rows of a table in a file as objects; its first row has their names. -/
def readTable (path : Value) : Routine Value := do
  match Csv.read (← Action.readText (← openPath path)) with
  | [] => arrayOf []
  | names :: rows => arrayOf (← (rows.filter (!·.isEmpty)).mapM (namedRow names))

def fieldText (v : Value) : Routine String :=
  match v with
  | .null => return ""
  | v => text v

/-- A row of a table as text. -/
def plainRow (row : Value) : Routine String := do
  match row with
  | .text _ | .bytes _ | .tuple _ | .array _ | .object _ =>
      return Csv.writeRow (← (← iterate row).mapM fieldText)
  | v => fail (.other .value ("iterable expected, not " ++ v.typeName))

/-- A row of a table whose fields are named by a heading. -/
def headedRow (names : List Value) (row : Value) : Routine String := do
  match row with
  | .object l =>
      let es ← entries l
      let wrong := es.filter fun e => !names.any (·.sameKey e.1)
      if wrong.isEmpty then
        names.forM hashable
        return Csv.writeRow (← names.mapM fun k => fieldText ((es.get? k).getD (.text "")))
      else
        valueFault ("dict contains fields not in fieldnames: "
          ++ String.intercalate ", " (← wrong.mapM fun e => quote e.1))
  | v => noAttribute v "keys"

def caught {α : Type} (act : Routine α) : Routine (Except Fault α) :=
  onFault (Except.ok <$> act) fun f => return .error f

/-- The rows of a table as text, up to the first that fails. -/
def writtenRows (row : Value → Routine String) :
    List Value → String → Routine (String × Option Fault)
  | [], acc => return (acc, none)
  | v :: vs, acc => do
      match ← caught (row v) with
      | .ok s => writtenRows row vs (acc ++ s)
      | .error f => return (acc, some f)

/-- The names of the columns of a table: those given, or else the keys of its first row. -/
def tableHeaders (data headers : Value) : Routine Value := do
  match headers with
  | .null =>
      match ← getItem data (.int 0) with
      | .object l => arrayOf ((← entries l).map (·.1))
      | _ => return .null
  | v => return v

/-- The text of a table up to the first fault. -/
def tableText (data headers : Value) : Routine (String × Option Fault) := do
  if ← truthy headers then
    let names ← iterate headers
    names.forM hashable
    let heading := Csv.writeRow (← names.mapM fieldText)
    match ← caught (iterate data) with
    | .ok rows => writtenRows (headedRow names) rows heading
    | .error f => return (heading, some f)
  else writtenRows plainRow (← iterate data) ""

/-- Writes a table to a file; objects are rows under a heading. -/
def writeTable (path data headers : Value) : Routine Value := do
  if !(← truthy data) then return .bool false
  let headers ← tableHeaders data headers
  writeThrough path (tableText data headers)
  return .bool true

def hashFile (path algorithm : Value) : Routine Value := do
  match algorithm with
  | .text name =>
      match Digest.named? name with
      | none => valueFault ("unsupported hash type " ++ name)
      | some digest => return .text (Digest.hexText (digest (← readBytes (← openPath path)).toList))
  | _ => typeFault "name must be a string"

def archived (e : Path × FileNode) : Archive.Entry :=
  let name := String.intercalate "/" e.1
  match e.2 with
  | .directory => { name := name ++ "/", content := [] }
  | .file content _ => { name, content := content.toList }

/-- The directory whose contents are packed. -/
def packedRoot (source : Value) : Routine String := do
  match source with
  | .null => return "."
  | v =>
      let path ← pathOrOpen "stat" v
      unless isDirectoryNode (← nodeAt v) do fail (FileError.notDirectory.fault path)
      return path

/-- Writes an archive of what is in a directory. -/
def packInto (file root : String) : Routine Unit := do
  writeText file ""
  let w ← get
  let (p, _) ← ofFile root (w.files.find w.cwd root)
  writeBytes file (Archive.write ((w.files.below p).map archived)).toByteArray

def compress (source destination : Value) : Routine Unit := do
  match destination with
  | .text d =>
      let base := Text.replaceAll ".zip" "" d
      let root ← packedRoot source
      let above := PathText.directoryName base
      let w ← get
      if !above.isEmpty && !w.files.present w.cwd above then
        makeDirectories above
      packInto (base ++ ".zip") root
  | .bytes _ => typeFault "a bytes-like object is required, not 'str'"
  | v => noAttribute v "replace"

/-- Unpacks an entry of an archive into a directory; names cannot lead out of it. -/
def unpack (directory : String) (e : Archive.Entry) : Routine Unit := do
  let names := (e.name.splitOn "/").filter fun n => n ≠ "" && n ≠ "." && n ≠ ".."
  let target := PathText.normal (PathText.join directory (String.intercalate "/" names))
  let above := PathText.directoryName target
  let w ← get
  if !above.isEmpty && !w.files.present w.cwd above then makeDirectories above
  if e.name.endsWith "/" then
    let w ← get
    unless w.files.isDirectory w.cwd target do
      changeFiles target fun fs cwd => fs.makeDirectory cwd target
  else writeBytes target e.content.toByteArray

def extract (archive directory : Value) : Routine Unit := do
  match Archive.read (← readBytes (← openPath archive)).toList with
  | none => valueFault "File is not a zip file"
  | some entries =>
      let target ←
        match directory with
        | .null => pure (← get).cwd.text
        | v => pathText v
      entries.forM (unpack target)

/-- The time a file was last changed; none when there is no file. -/
def modifiedAt (path : Value) : Routine (Option Float) := do
  if ← pathPresent path then return some (nodeTime (← get).clock (← nodeAt path)) else return none

/-- Calls a function each time a file is found changed. -/
def watch (call : Caller) (path callback interval : Value) : Nat → Float → Action Unit
  | 0, _ => throw .interrupt
  | n + 1, last => do
      discard <| sleep interval
      match ← modifiedAt path with
      | none => watch call path callback interval n last
      | some now =>
          if now == last then watch call path callback interval n last
          else
            discard <| call callback [path]
            watch call path callback interval n now

/-- A function of a path, which stays a text or bytes. -/
def onPath (f : String → String) (v : Value) : Routine Value := do
  match v with
  | .bytes _ => return .bytes (f (← pathText v)).toUTF8.toList
  | v => return .text (f (← pathText v))

def joinPaths (args : List Value) : Routine Value := do
  match args with
  | [] => fail (.arguments (missingMessage "join" ["a"]))
  | first :: rest =>
      let start ← pathText first
      let joined ← rest.foldlM (fun acc v =>
        match v with
        | .text s => return PathText.join acc s
        | .bytes _ => typeFault "Can't mix strings and bytes in path components"
        | v =>
            typeFault ("join() argument must be str, bytes, or os.PathLike object, not '"
              ++ v.typeName ++ "'")) start
      return .text joined

/-- Makes something new among the temporary files. -/
def temporary (make : FileSystem → Path → FileSystem) : Routine Value := do
  let w ← get
  let p : Path := ["tmp", s!"tmp{w.temporaries}"]
  set { w with files := make (w.files.makeDirs ["tmp"]) p, temporaries := w.temporaries + 1 }
  return .text p.text

def fileFacts (path : Value) : Routine Value := do
  let node ← nodeAt path
  let time := Value.float (nodeTime (← get).clock node)
  objectOf [("size", .int (nodeSize node)), ("created", time), ("modified", time),
    ("accessed", time), ("isFile", .bool !(isDirectoryNode node)),
    ("isDir", .bool (isDirectoryNode node))]

def homeDirectory : Routine Value := do
  let w ← get
  let home := (w.environment.lookup "HOME").getD w.home.text
  let trimmed := String.ofList (home.toList.reverse.dropWhile (· == '/')).reverse
  return .text (if trimmed.isEmpty then "/" else trimmed)

def namesIn (path : String) : Routine Value := do
  let w ← get
  match ← ofFile path (w.files.find w.cwd path) with
  | (p, .directory) => arrayOf ((w.files.children p).map .text)
  | (_, .file ..) => fail (FileError.notDirectory.fault path)

def listDirectory (v : Value) : Routine Value := do
  match v with
  | .null => namesIn "."
  | .int _ | .bool _ => fail (.other .system "[Errno 9] Bad file descriptor")
  | v => namesIn (← pathFor "listdir" "string, bytes, os.PathLike, integer or None" v)

def changeDirectory (v : Value) : Routine Unit := do
  let path ← pathOrOpen "chdir" v
  let w ← get
  match ← ofFile path (w.files.find w.cwd path) with
  | (p, .directory) => set { w with cwd := p }
  | (_, .file ..) => fail (FileError.notDirectory.fault path)

/-- Changes the permissions of a file, which nothing depends on here. -/
def changeMode (path mode : Value) : Routine Unit := do
  match path with
  | .int _ | .bool _ =>
      discard <| ofExcept mode.integer
      discard <| pathOrOpen "chmod" path
  | _ =>
      let name ← pathOrOpen "chmod" path
      discard <| ofExcept mode.integer
      let w ← get
      discard <| ofFile name (w.files.find w.cwd name)

/-- Runs an action for its effect and gives true, with its failures reported. -/
def succeeding (what : String) (act : Routine Unit) : Routine Value :=
  reporting what do
    act
    return .bool true

/-- Runs a function of the files package that calls no function it is given. -/
def runFilesPlain (f : FilesFn) (args : List Value) : Routine Value := do
  let a := args.getD 0 .null
  let b := args.getD 1 .null
  let c := args.getD 2 .null
  match f with
  | .read => reporting "File read" do return .text (← Action.readText (← openPath a))
  | .write => succeeding "File write" (writeThrough a do return (← text b, none))
  | .append => succeeding "File append" (appendText a b)
  | .exists => return .bool (← pathPresent a)
  | .delete =>
      succeeding "File delete" do
        let path ← pathFor "remove" "string, bytes or os.PathLike" a
        changeFiles path fun fs cwd => fs.removeFile cwd path
  | .readJSON => reporting "JSON read" (readJsonFile a)
  | .writeJSON => succeeding "JSON write" (writeJson a b)
  | .listdir => reporting "Directory list" (listDirectory a)
  | .mkdir =>
      succeeding "Directory create" do
        let path ← pathText a
        makeDirectories path
  | .copy =>
      succeeding "File copy" do
        let (s, t) ← operandPaths "copy" a b
        copyFile s t
  | .move =>
      succeeding "File move" do
        let (s, t) ← operandPaths "rename" a b
        moveNode s t
  | .size => reporting "File size" do return .int (nodeSize (← nodeAt a))
  | .extension => onPath PathText.extension a
  | .basename => onPath PathText.baseName a
  | .dirname => onPath PathText.directoryName a
  | .join => joinPaths args
  | .absolute => onPath (PathText.absolute (← get).cwd) a
  | .isFile => return .bool (← nodeHas (!isDirectoryNode ·) a)
  | .isDir => return .bool (← nodeHas isDirectoryNode a)
  | .readLines =>
      reporting "File read" do
        arrayOf ((linesWithEnds (← Action.readText (← openPath a))).map .text)
  | .writeLines =>
      succeeding "File write" (writeThrough a do return writtenLines (← iterate b))
  | .search =>
      let pattern ← pathText (← joinPaths [a, b])
      let w ← get
      arrayOf ((w.files.glob w.cwd pattern).map .text)
  | .walk =>
      let path ← pathText a
      let w ← get
      arrayOf ((w.files.filesBelow w.cwd path).map .text)
  | .chmod => succeeding "Permission change" (changeMode a b)
  | .stat => reporting "Stat" (fileFacts a)
  | .readBinary =>
      reporting "Binary read" do return .bytes (← readBytes (← openPath a)).toList
  | .writeBinary =>
      succeeding "Binary write" do
        let name ← openPath a
        writeText name ""
        match b with
        | .bytes bs => writeBytes name bs.toByteArray
        | v => typeFault ("a bytes-like object is required, not '" ++ v.typeName ++ "'")
  | .rmdir =>
      succeeding "Directory remove" do
        removeTree (← pathFor "lstat" "string, bytes or os.PathLike" a)
  | .copyDir =>
      succeeding "Directory copy" do
        copyTree (← pathText a) (← pathText b)
  | .tempFile => temporary fun fs p => fs.put p (.file ByteArray.empty 0)
  | .tempDir => temporary fun fs p => fs.put p .directory
  | .cwd => return .text (← get).cwd.text
  | .chdir => succeeding "Change directory" (changeDirectory a)
  | .home => homeDirectory
  | .readCSV => reporting "CSV read" (readTable a)
  | .writeCSV => reporting "CSV write" (writeTable a b c)
  | .hash => reporting "Hash" (hashFile a b)
  | .compress => succeeding "Compression" (compress a b)
  | .extract => succeeding "Extraction" (extract a b)
  | .watch => return .null

def runFiles (call : Caller) (f : FilesFn) (args : List Value) : Action Value := do
  match f with
  | .watch =>
      let path := args.getD 0 .null
      watch call path (args.getD 1 .null) (args.getD 2 .null) loopLimit ((← modifiedAt path).getD 0)
      return .null
  | f => runFilesPlain f args

end ScriptLang.Package
