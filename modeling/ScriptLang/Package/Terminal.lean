import ScriptLang.Files.Document
import ScriptLang.Package.Console
import ScriptLang.Package.System

/-!
# Terminal programs

Banners, boxes, progress bars, menus and tables, data kept in files, and a frame for applications.
-/

namespace ScriptLang.Package

open ScriptLang.Action ScriptLang.Library

/-- A text so many times in a row. -/
def times (n : Nat) (s : String) : String :=
  String.join (List.replicate n s)

/-- A value between two rules, which are as long as it is with four blanks. -/
def printTitle (v : Value) : Routine Unit := do
  let width := (← length v) + 4
  printLine (times width "=")
  printLine ("  " ++ (← text v) ++ "  ")
  printLine (times width "=")

/-- A mark so many times in a row, on a line of its own. -/
def printSeparator (mark count : Value) : Routine Unit := do
  printValues [← mul mark count]

/-- Prints each text on a line of its own. -/
def printLines (lines : List String) : Routine Unit :=
  lines.forM printLine

/-- A text in a box. -/
def boxLines (s : String) : List String :=
  let lines := Text.split "\n" s
  let width := (lines.map String.length).foldl max 0
  let edge := "+" ++ times (width + 2) "-" ++ "+"
  edge :: lines.map (fun line => "| " ++ Text.padRight width ' ' line ++ " |") ++ [edge]

/-- Prints a text in a box; only texts have lines. -/
def printBox (v : Value) : Routine Unit := do
  match v with
  | .text s => printLines (boxLines s)
  | .bytes _ => typeFault "a bytes-like object is required, not 'str'"
  | v => noAttribute v "split"

/-- A progress bar, with a line end once it is full. -/
def printProgress (current total label size : Value) : Routine Unit := do
  let percent ← div current total
  let filled ← toInt (← mul size percent)
  let done ← mul (.text "█") (.int filled)
  let left ← mul (.text "-") (← sub size (.int filled))
  let bar ← add.plus done left
  let shown ← toInt (← mul percent (.int 100))
  print ("\r" ++ (← text label) ++ " |" ++ (← text bar) ++ s!"| {shown}%")
  if ← ordered .ge current total then print "\n"

/-- The signs that a spinner shows in turn. -/
def spinnerFrames : List String := ["|", "/", "-", "\\"]

/-- Turns the spinner until the clock reaches an end. -/
def spin (message : Value) (stop : Value) : Nat → Nat → Routine Unit
  | 0, _ => throw .interrupt
  | n + 1, i => do
      if ← ordered .lt (.float (← get).clock) stop then
        print ("\r" ++ (← text message) ++ " " ++ spinnerFrames.getD (i % 4) "")
        discard <| sleep (.float 0.1)
        spin message stop n (i + 1)
      else printLine ("\r" ++ (← text message) ++ " Done!     ")

/-- A menu with numbered options: the index of the one chosen, minus one when interrupted. -/
def menu (heading options : Value) : Routine Value := do
  printLine ("\n" ++ (← text heading))
  printSeparator (.text "-") (.int 50)
  printOptions options
  printSeparator (.text "-") (.int 50)
  tryCatch (do return .int (← askOption "Select option: " options ((← get).input.length + 1))) fun
    | .interrupt => do
        printLine "\nCancelled"
        return .int (-1)
    | s => throw s

/-- The texts of cells, for so many columns. -/
def cellTexts : Nat → List Value → Routine (List String)
  | _, [] => return []
  | 0, _ => fail (.other .index "list index out of range")
  | n + 1, c :: cs => do return (← text c) :: (← cellTexts n cs)

/-- The texts of a row of a table. -/
def rowTexts (columns : Nat) (row : Value) : Routine (List String) := do
  cellTexts columns (← iterate row)

/-- Raises column widths to fit the texts of cells. -/
def widen : List Nat → List String → List Nat
  | w :: ws, t :: ts => max w t.length :: widen ws ts
  | ws, _ => ws

/-- Cells padded to the column widths. -/
def tableRow (widths : List Nat) (cells : List String) : String :=
  String.intercalate " | " ((cells.zip widths).map fun (c, w) => Text.padRight w ' ' c)

/-- A table: the names of its columns, a rule and its rows. -/
def tableLines (names : List String) (rows : List (List String)) : List String :=
  let widths := rows.foldl widen (names.map String.length)
  let line := tableRow widths names
  line :: times line.length "-" :: rows.map (tableRow widths)

/-- Prints a table. All cells are made texts before the first line is printed. -/
def printTable (headers rows : Value) : Routine Unit := do
  let heads ← iterate headers
  discard <| heads.mapM length
  let cells ← (← iterate rows).mapM (rowTexts heads.length)
  let names ← heads.mapM fun
    | .text s => pure s
    | v => noAttribute v "ljust"
  printLines (tableLines names cells)

/-- Keeps a value in a file. -/
def saveData (path v : Value) : Routine Value :=
  onFault (do
    writeJson path v
    return .bool true) fun f => do
      printLine ("Error saving data: " ++ f.message)
      return .bool false

/-- The value kept in a file; null when there is none. -/
def loadData (path : Value) : Routine Value :=
  onFault (do
    if ← pathPresent path then readJsonFile path else return .null)
    fun f => do
      printLine ("Error loading data: " ++ f.message)
      return .null

/-- The number after the colon of a rule. -/
def ruleBound (rule : String) : Routine Int := do
  toInt (.text ((rule.splitOn ":").getD 1 ""))

/-- Whether a value keeps all rules. -/
def validate (v : Value) : List Value → Routine Bool
  | [] => return true
  | .text rule :: rules => do
      let present ← truthy v
      if rule == "required" && !present then return false
      else if rule == "number" then
        match v.toFloat with
        | .ok _ => validate v rules
        | .error f => if f.kind = .value then return false else fail f
      else if rule.startsWith "min:" then
        let n ← ruleBound rule
        if ((← text v).length : Int) < n then return false else validate v rules
      else if rule.startsWith "max:" then
        let n ← ruleBound rule
        if n < ((← text v).length : Int) then return false else validate v rules
      else validate v rules
  | rule :: _ => noAttribute rule "startswith"

/-- The codes of the colours, by name. -/
def colours : List (String × String) :=
  [("RESET", "\x1b[0m"), ("RED", "\x1b[91m"), ("GREEN", "\x1b[92m"), ("YELLOW", "\x1b[93m"),
   ("BLUE", "\x1b[94m"), ("MAGENTA", "\x1b[95m"), ("CYAN", "\x1b[96m"), ("WHITE", "\x1b[97m")]

/-- A text between the code of a colour and the code that ends it. -/
def colorize (v colour : Value) : Routine Value := do
  match colour with
  | .text c =>
      let name := Text.lower c
      let code :=
        if name == "reset" then none
        else colours.find? fun e => Text.lower e.1 == name
      return .text ((code.map (·.2)).getD "" ++ (← text v) ++ "\x1b[0m")
  | v => noAttribute v "lower"

/-- A new application; it runs from the start. -/
def newApp (name version : Value) : Routine Value := do
  let w ← get
  set { w with apps := w.apps.push { name, version } }
  return .handle (.app w.apps.size)

/-- What the functions of the package do with their arguments. -/
def runTerminal (f : TerminalFn) (args : List Value) : Routine Value := do
  let a := args.getD 0 .null
  let b := args.getD 1 .null
  let c := args.getD 2 .null
  match f with
  | .clear => pure ()
  | .title => printTitle a
  | .header => printLine ("\n=== " ++ (← text a) ++ " ===\n")
  | .separator => printSeparator a b
  | .box => printBox a
  | .progress => printProgress a b c (args.getD 3 .null)
  | .spinner =>
      let stop ← add.plus (.float (← get).clock) b
      spin a stop loopLimit 0
  | .menu => return ← menu a b
  | .table => printTable a b
  | .saveData => return ← saveData a b
  | .loadData => return ← loadData a
  | .validate => return .bool (← validate a (← iterate b))
  | .pause => discard <| ask a
  | .confirm =>
      let answer ← askLower (.text ((← text a) ++ " (y/n): "))
      return .bool (isYes answer)
  | .timestamp => return .text (← dateText)
  | .log => printLine ("[" ++ (← dateText) ++ "] [" ++ (← text b) ++ "] " ++ (← text a))
  | .error => printLine ("ERROR: " ++ (← text a))
  | .success => printLine ("✓ " ++ (← text a))
  | .warning => printLine ("⚠ " ++ (← text a))
  | .info => printLine ("ℹ " ++ (← text a))
  | .colorize => return ← colorize a b
  | .createApp => return ← newApp a b
  return .null

/-- The application with a number. -/
def appAt (id : Nat) : Routine App := do
  return (← get).apps.getD id { name := .null, version := .null }

/-- The members of an application that are no methods. -/
def appMember? (id : Nat) (name : String) : Routine (Option Value) := do
  let app ← appAt id
  match name with
  | "name" => return some app.name
  | "version" => return some app.version
  | "running" => return some (.bool app.running)
  | "start" | "stop" | "isRunning" => return some (.bound (.handle (.app id)) name)
  | _ => return none

/-- Calls a method of an application. -/
def callApp (id : Nat) (name : String) (args : List Value) : Routine Value := do
  discard <| ofExcept ((takes ["self"] []).bind ("App." ++ name) (.null :: args))
  let app ← appAt id
  match name with
  | "start" =>
      printTitle (.text ((← text app.name) ++ " v" ++ (← text app.version)))
      print "\n"
      return .null
  | "stop" =>
      modify fun w => { w with apps := w.apps.modify id fun a => { a with running := false } }
      printLine ("\nThank you for using " ++ (← text app.name) ++ "!")
      return .null
  | _ => return .bool app.running

end ScriptLang.Package
