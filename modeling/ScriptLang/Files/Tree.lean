import ScriptLang.Text.Search

/-!
# A file system

Files and directories below a root. A path is the list of names that lead to a node from the root;
nodes are kept in the order in which they were made.
-/

namespace ScriptLang

/-- The names that lead from the root to a node. -/
abbrev Path := List String

/-- A file with its content and the time it was last changed, or a directory. -/
inductive FileNode where
  | file (content : ByteArray) (modified : Float)
  | directory

/-- All nodes but the root, in the order in which they were made. -/
structure FileSystem where
  nodes : List (Path × FileNode) := []

/-- Why an operation on the file system failed. -/
inductive FileError where
  | missing | notDirectory | isDirectory | exists | notEmpty | invalid
deriving DecidableEq, Repr

def FileError.number : FileError → Nat
  | .missing => 2
  | .notDirectory => 20
  | .isDirectory => 21
  | .exists => 17
  | .notEmpty => 39
  | .invalid => 22

def FileError.text : FileError → String
  | .missing => "No such file or directory"
  | .notDirectory => "Not a directory"
  | .isDirectory => "Is a directory"
  | .exists => "File exists"
  | .notEmpty => "Directory not empty"
  | .invalid => "Invalid argument"

namespace FileSystem

/-- The node at a path; the root is a directory. -/
def node? (fs : FileSystem) (p : Path) : Option FileNode :=
  if p.isEmpty then some .directory else fs.nodes.lookup p

/-- Puts a node at a path, in its old place or last. -/
def put (fs : FileSystem) (p : Path) (n : FileNode) : FileSystem :=
  if fs.nodes.any (·.1 == p) then
    { nodes := fs.nodes.map fun e => if e.1 == p then (p, n) else e }
  else { nodes := fs.nodes ++ [(p, n)] }

/-- Removes a node and everything below it. -/
def remove (fs : FileSystem) (p : Path) : FileSystem :=
  { nodes := fs.nodes.filter fun e => !p.isPrefixOf e.1 }

/-- Removes everything below a path. -/
def clear (fs : FileSystem) (p : Path) : FileSystem :=
  { nodes := fs.nodes.filter fun e => !(p.isPrefixOf e.1 && e.1 != p) }

def children (fs : FileSystem) (p : Path) : List String :=
  fs.nodes.filterMap fun e =>
    if e.1.length == p.length + 1 && p.isPrefixOf e.1 then e.1.getLast? else none

def below (fs : FileSystem) (p : Path) : List (Path × FileNode) :=
  fs.nodes.filterMap fun e =>
    if p.length < e.1.length && p.isPrefixOf e.1 then some (e.1.drop p.length, e.2) else none

/-- Follows names from a directory: a dot stays, two dots go up, and every name passed through
must be a directory. -/
def walk (fs : FileSystem) : Path → List String → Except FileError Path
  | p, [] => .ok p
  | p, name :: rest =>
      match fs.node? p with
      | none => .error .missing
      | some (.file ..) => .error .notDirectory
      | some .directory =>
          if name = "" || name = "." then walk fs p rest
          else if name = ".." then walk fs p.dropLast rest
          else walk fs (p ++ [name]) rest

def names (path : String) : List String :=
  (Text.split "/" path).filter (· ≠ "")

/-- The path a text stands for, seen from a directory. An empty text stands for nothing, and one
that ends in a slash must name a directory if it names anything. -/
def resolve (fs : FileSystem) (cwd : Path) (path : String) : Except FileError Path :=
  if path.isEmpty then .error .missing
  else
    let start := if path.startsWith "/" then [] else cwd
    match walk fs start (names path) with
    | .error e => .error e
    | .ok p =>
        if path.endsWith "/" then
          match fs.node? p with
          | some (.file ..) => .error .notDirectory
          | _ => .ok p
        else .ok p

def find (fs : FileSystem) (cwd : Path) (path : String) : Except FileError (Path × FileNode) :=
  match fs.resolve cwd path with
  | .error e => .error e
  | .ok p =>
      match fs.node? p with
      | some n => .ok (p, n)
      | none => .error .missing

def present (fs : FileSystem) (cwd : Path) (path : String) : Bool :=
  (fs.find cwd path).isOk

def isDirectory (fs : FileSystem) (cwd : Path) (path : String) : Bool :=
  match fs.find cwd path with
  | .ok (_, .directory) => true
  | _ => false

def read (fs : FileSystem) (cwd : Path) (path : String) : Except FileError ByteArray :=
  match fs.find cwd path with
  | .error e => .error e
  | .ok (_, .directory) => .error .isDirectory
  | .ok (_, .file content _) => .ok content

/-- Makes or replaces a file; its directory must be there. -/
def write (fs : FileSystem) (cwd : Path) (path : String) (content : ByteArray) (time : Float) :
    Except FileError FileSystem :=
  match fs.resolve cwd path with
  | .error e => .error e
  | .ok p =>
      match fs.node? p with
      | some .directory => .error .isDirectory
      | some (.file ..) => .ok (fs.put p (.file content time))
      | none =>
          if path.endsWith "/" then .error .isDirectory
          else
            match fs.node? p.dropLast with
            | some .directory => .ok (fs.put p (.file content time))
            | some (.file ..) => .error .notDirectory
            | none => .error .missing

def makeDirectory (fs : FileSystem) (cwd : Path) (path : String) : Except FileError FileSystem :=
  match fs.resolve cwd path with
  | .error e => .error e
  | .ok p =>
      match fs.node? p with
      | some _ => .error .exists
      | none =>
          match fs.node? p.dropLast with
          | some .directory => .ok (fs.put p .directory)
          | some (.file ..) => .error .notDirectory
          | none => .error .missing

def removeFile (fs : FileSystem) (cwd : Path) (path : String) : Except FileError FileSystem :=
  match fs.find cwd path with
  | .error e => .error e
  | .ok (_, .directory) => .error .isDirectory
  | .ok (p, .file ..) => .ok (fs.remove p)

/-- Removes an empty directory, which must be named by its own name. -/
def removeDirectory (fs : FileSystem) (cwd : Path) (path : String) : Except FileError FileSystem :=
  match fs.find cwd path with
  | .error e => .error e
  | .ok (_, .file ..) => .error .notDirectory
  | .ok (p, .directory) =>
      match (names path).getLast? with
      | some "." => .error .invalid
      | some ".." => .error .notEmpty
      | _ => if (fs.children p).isEmpty then .ok (fs.remove p) else .error .notEmpty

/-- Puts what is at one path, with everything below it, at another. -/
def relocate (fs : FileSystem) (source target : Path) : FileSystem :=
  { nodes := fs.nodes.map fun e =>
      if source.isPrefixOf e.1 then (target ++ e.1.drop source.length, e.2) else e }

/-- Gives a node another name. A file takes the place of a file and a directory that of an empty
directory; a directory cannot go into itself. -/
def rename (fs : FileSystem) (cwd : Path) (source target : String) :
    Except FileError FileSystem := do
  let (p, n) ← fs.find cwd source
  let q ← fs.resolve cwd target
  if p == q then return fs
  match fs.node? q.dropLast with
  | some .directory => pure ()
  | some (.file ..) => throw .notDirectory
  | none => throw .missing
  if p.isPrefixOf q then throw .invalid
  match n, fs.node? q with
  | .directory, some (.file ..) => throw .notDirectory
  | .file .., some .directory => throw .isDirectory
  | .directory, some .directory =>
      if (fs.children q).isEmpty then return (fs.remove q).relocate p q else throw .notEmpty
  | .file .., none => if target.endsWith "/" then throw .notDirectory else return fs.relocate p q
  | _, none => return fs.relocate p q
  | _, some _ => return (fs.remove q).relocate p q

/-- Makes a directory and those above it that are missing. -/
def makeDirs (fs : FileSystem) (p : Path) : FileSystem :=
  (List.range p.length).foldl
    (fun fs k =>
      if (fs.node? (p.take (k + 1))).isSome then fs else fs.put (p.take (k + 1)) .directory)
    fs

end FileSystem

def Path.text (p : Path) : String :=
  "/" ++ String.intercalate "/" p

end ScriptLang
