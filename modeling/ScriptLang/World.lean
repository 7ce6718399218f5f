import ScriptLang.Files.Tree
import ScriptLang.Format.Http
import ScriptLang.Store

/-!
# The world of a running program

What programs can change or observe. The setting is the heap with everything outside the program:
the console, the clock, files, the environment and what packages keep; the world adds the code. A
`Routine` works in the setting alone and ends in a value or a halt. An `Action` works in the whole
world and ends in a value or a signal. Every routine is an action too. The changes made before a
halt or signal stay.
-/

namespace ScriptLang

/-- A database: its name, its tables (an object), and the file it is kept in. -/
structure Database where
  name : Value
  tables : Value
  indexes : Value
  file : String

/-- A selection that is put together call by call. -/
structure Query where
  table : Value
  conditions : Loc
  limit : Value := .null

/-- What the database package keeps. -/
structure DatabaseState where
  databases : Array Database := #[]
  /-- databases by name -/
  registry : Entries := []
  current : Option Nat := none
  queries : Array Query := #[]

/-- An application of the terminal package. -/
structure App where
  name : Value
  version : Value
  running : Bool := true

/-- What the web package keeps. -/
structure SiteState where
  routes : Entries := []
  templates : Entries := []
  assets : Entries := []
  /-- the request being answered; null when there is none -/
  request : Value := .null

/-- A server, with the address it was made with. -/
structure HttpServer where
  host : Value
  port : Value
  listener : Option Nat := none
  running : Bool := false

/-- What the http package keeps. -/
structure HttpState where
  servers : Array HttpServer := #[]
  current : Option Nat := none
  router : Value := .null

/-- A call that the toolkit has received. -/
structure ToolkitCall where
  target : String
  method : String
  args : List Value
  named : List (String × Value)

/-- What the toolkit knows of an object. -/
structure ToolkitObject where
  kind : ToolkitKind
  options : List (String × Value) := []
  text : String := ""
  items : Array Value := #[]
  selected : Option Nat := none
  flag : Bool := false

/-- What can be added to a window. -/
inductive WidgetKind where
  | button | label | textbox | textarea | checkbox | listbox
deriving DecidableEq

/-- The word for a kind of widget, which the names of its widgets begin with. -/
def WidgetKind.name : WidgetKind → String
  | .button => "button"
  | .label => "label"
  | .textbox => "textbox"
  | .textarea => "textarea"
  | .checkbox => "checkbox"
  | .listbox => "listbox"

/-- A widget: its toolkit object, the variable of a check box, and what a click calls. -/
structure Widget where
  kind : WidgetKind
  object : Nat
  flag : Nat := 0
  callback : Value := .null

/-- What the window package and its toolkit keep. -/
structure GuiState where
  objects : Array ToolkitObject := #[]
  window : Option Nat := none
  widgets : List (String × Widget) := []
  counter : Nat := 0
  /-- calls on the toolkit, latest first -/
  log : List ToolkitCall := []
  /-- answers the user will give to dialogs -/
  replies : List Value := []
  /-- the faults of the calls that the toolkit refuses -/
  refuses : ToolkitCall → Option Fault := fun _ => none

/-- What happens to a file while a program sleeps. -/
structure FileEvent where
  path : String
  /-- the new content; none when the file is removed -/
  text : Option String
  modified : Float

/-- The heap, and everything outside the program. -/
structure Setting where
  heap : Heap := {}
  /-- what was printed so far -/
  out : String := ""
  /-- what the user has yet to type -/
  input : List Char := []
  /-- seconds since the epoch -/
  clock : Float := 1700000000.0
  /-- what happens at each of the coming sleeps; when this runs out the user interrupts; without it
  nothing ever happens -/
  sleeps : Option (List (Option FileEvent)) := none
  files : FileSystem := {}
  cwd : Path := []
  home : Path := []
  /-- the directory this interpreter is installed in, as texts show it -/
  installDir : String := ""
  environment : List (String × String) := []
  /-- the words of the command line -/
  arguments : List String := []
  databases : DatabaseState := {}
  apps : Array App := #[]
  listeners : Nat := 0
  /-- the port that another program listens on -/
  takenPort : Int := 9999
  /-- the port on which the user stops a server as soon as it serves -/
  interruptedPort : Int := 9998
  hostingCallback : Value := .null
  site : SiteState := {}
  http : HttpState := {}
  /-- the answer to the request that is being served -/
  exchange : Http.Exchange := {}
  gui : GuiState := {}
  /-- temporary files made so far -/
  temporaries : Nat := 0
  /-- how many floats that are not numbers were made so far -/
  nans : Nat := 0
  /-- where the sequence of random numbers stands -/
  seed : UInt64 := 88172645463325252

/-- Everything a program can change or observe. -/
structure World extends Setting where
  code : Code := {}

/-- The heap and the code of a world. -/
def World.store (w : World) : Store :=
  { w.heap, w.code with }

def FileEvent.apply (e : FileEvent) (w : Setting) : FileSystem :=
  match e.text with
  | some s => (w.files.write w.cwd e.path s.toUTF8 e.modified).toOption.getD w.files
  | none =>
      match w.files.resolve w.cwd e.path with
      | .ok p => w.files.remove p
      | .error _ => w.files

/-- Why a computation ends before its value. -/
inductive Signal where
  | break
  | continue
  | return (v : Value)
  | fault (f : Fault)
  /-- the program ends itself -/
  | exit (code : Value)
  /-- the user interrupts -/
  | interrupt
  /-- the program uses a part of the implementation that the language does not describe -/
  | foreign (name : String)

/-- Why a routine ends before its value. -/
inductive Halt where
  | fault (f : Fault)
  /-- the program ends itself -/
  | exit (code : Value)
  /-- the user interrupts -/
  | interrupt
  /-- the program uses a part of the implementation that the language does not describe -/
  | foreign (name : String)

def Halt.signal : Halt → Signal
  | .fault f => .fault f
  | .exit code => .exit code
  | .interrupt => .interrupt
  | .foreign name => .foreign name

/-- A computation in the setting alone. -/
abbrev Routine := EStateM Halt Setting

/-- A computation in the whole world. -/
abbrev Action := EStateM Signal World

/-- A routine as an action, which leaves the code as it is. -/
def Routine.perform {α : Type} (r : Routine α) : Action α := fun w =>
  let code := w.code
  match r w.toSetting with
  | .ok a s => .ok a { s with code }
  | .error h s => .error h.signal { s with code }

instance : MonadLift Routine Action where
  monadLift := Routine.perform

namespace Action

def fail {α : Type} (f : Fault) : Routine α :=
  throw (.fault f)

def typeFault {α : Type} (message : String) : Routine α :=
  fail (.other .type message)

def valueFault {α : Type} (message : String) : Routine α :=
  fail (.other .value message)

/-- A fault about members. -/
def attributeFault {α : Type} (message : String) : Routine α :=
  fail (.other .attribute message)

def runtimeFault {α : Type} (message : String) : Routine α :=
  fail (.other .runtime message)

/-- The result of a pure computation that can fail. -/
def ofExcept {α : Type} : Except Fault α → Routine α
  | .ok a => pure a
  | .error f => fail f

def heap : Routine Heap := do
  return (← get).heap

def code : Action Code := do
  return (← get).code

def modifyHeap (f : Heap → Heap) : Routine Unit :=
  modify fun w => { w with heap := f w.heap }

def modifyCode (f : Code → Code) : Action Unit :=
  modify fun w =>
    let code := w.code
    let w := { w with code := {} }
    { w with code := f code }

def newFunction (c : Closure) : Action Loc := do
  let l := (← code).functions.size
  modifyCode fun s => { s with functions := s.functions.push c }
  return l

def newClass (c : ClassInfo) : Action Loc := do
  let l := (← code).classes.size
  modifyCode fun s => { s with classes := s.classes.push c }
  return l

/-- Gives a class the properties it has from now on. -/
def setProperties (l : Loc) (properties : List PropertyRef) : Action Unit :=
  modifyCode fun s => { s with classes := s.classes.modify l fun c => { c with properties } }

def alloc (c : Cell) : Routine Loc :=
  modifyGet fun w =>
    let (l, s) := w.heap.alloc c
    (l, { w with heap := s })

def real (x : Float) : Routine Value :=
  if x.isNaN then modifyGet fun w => (.nan w.nans, { w with nans := w.nans + 1 })
  else return .float x

def newArray (items : Array Value) : Routine Value :=
  Value.array <$> alloc (.array items)

def arrayOf (items : List Value) : Routine Value :=
  newArray items.toArray

def newObject (entries : Entries) : Routine Value :=
  Value.object <$> alloc (.object entries)

def objectOf (fields : List (String × Value)) : Routine Value :=
  newObject (fields.map fun f => (.text f.1, f.2))

def newDerived (d : Derived) : Routine Value :=
  Value.derived <$> alloc (.derived d)

def items (l : Loc) : Routine (Array Value) := do
  return (← get).heap.items l

def entries (l : Loc) : Routine Entries := do
  return (← get).heap.entries l

def modifyCell (l : Loc) (f : Cell → Cell) : Routine Unit :=
  modify fun w =>
    let heap := w.heap
    let w := { w with heap := {} }
    { w with heap := { heap with cells := heap.cells.modify l f } }

/-- Changes an array, in place. To change the parameters of a function has no meaning. -/
def modifyItems (l : Loc) (f : Array Value → Array Value) : Routine Unit := do
  if (← heap).hasParameters l then throw (.foreign "params") else modifyCell l (.mapItems f)

def modifyEntries (l : Loc) (f : Entries → Entries) : Routine Unit :=
  modifyCell l fun
    | .object es => .object (f es)
    | c => c

/-- Changes a derived function, in place. -/
def modifyDerived (l : Loc) (f : Derived → Derived) : Routine Unit :=
  modifyCell l fun
    | .derived d => .derived (f d)
    | c => c

def setItems (l : Loc) (xs : Array Value) : Routine Unit :=
  modifyItems l fun _ => xs

def setEntries (l : Loc) (es : Entries) : Routine Unit :=
  modifyEntries l fun _ => es

def print (s : String) : Routine Unit :=
  modify fun w => { w with out := w.out ++ s }

def printLine (s : String) : Routine Unit :=
  print (s ++ "\n")

/-- The line the user types next: an interrupt when it is the interrupt character alone, a fault
when there is no more input. -/
def readLine : Routine String := do
  let w ← get
  match w.input with
  | [] => fail (.other .endOfInput "EOF when reading a line")
  | cs =>
      let line := cs.takeWhile (· ≠ '\n')
      set { w with input := (cs.dropWhile (· ≠ '\n')).drop 1 }
      if line == [Char.ofNat 3] then throw .interrupt
      else return String.ofList line

/-- The next number of a pseudo-random sequence of 64-bit numbers. -/
def randomBits : Routine Nat :=
  modifyGet fun w =>
    let x : UInt64 := w.seed ^^^ (w.seed <<< (13 : UInt64))
    let x : UInt64 := x ^^^ (x >>> (7 : UInt64))
    let x : UInt64 := x ^^^ (x <<< (17 : UInt64))
    (x.toNat, { w with seed := x })

/-- A random float from zero up to below one. -/
def randomUnit : Routine Float := do
  return (Float.ofNat ((← randomBits) / 2048)) / 9007199254740992.0

def randomBelow (n : Nat) : Routine Nat := do
  return (← randomBits) % n

/-- Runs a routine; when it fails, runs the handler on the fault. The end of the program and
interrupts are no failures. -/
def onFault {α : Type} (act : Routine α) (handler : Fault → Routine α) : Routine α :=
  tryCatch act fun
    | .fault f => handler f
    | h => throw h

/-- Runs an action; when it fails, runs the handler on the fault. Signals of control flow that leave
a function count as faults; the end of the program, interrupts and foreign parts do not. -/
def recover {α : Type} (act : Action α) (handler : Signal → Action α) : Action α :=
  tryCatch act fun
    | .exit v => throw (.exit v)
    | .interrupt => throw .interrupt
    | .foreign name => throw (.foreign name)
    | s => handler s

end Action

end ScriptLang
