import ScriptLang.PackageStore
import ScriptLang.Session

/-!
# The command line

What the words of a command line ask for, and what is then done: programs are run or checked, and
packages are installed, removed and listed. Commands that fail end with a status other than zero.
-/

namespace ScriptLang

open ScriptLang.Action

inductive Command where
  | run (file : String)
  | build (file : String)
  | install (package : String)
  | remove (package : String)
  | list
  | version
  | help
deriving DecidableEq, Repr

inductive CommandError where
  | empty
  | noFile
  | noPackage
  | unknown (word : String)
deriving DecidableEq, Repr

/-- Whether a program ends because it reads beyond its input. -/
def Signal.isEndOfInput : Signal → Bool
  | .fault f => f.kind = .endOfInput
  | _ => false

namespace Command

/-- The command that the words of a command line ask for; words too many do not matter. -/
def ofWords : List String → Except CommandError Command
  | [] => .error .empty
  | "run" :: rest => operand .noFile .run rest
  | "build" :: rest => operand .noFile .build rest
  | "install" :: rest => operand .noPackage .install rest
  | "remove" :: rest => operand .noPackage .remove rest
  | "list" :: _ => .ok .list
  | "version" :: _ => .ok .version
  | "help" :: _ => .ok .help
  | word :: _ => .error (.unknown word)
where
  /-- The command with the first of the words that are left. -/
  operand (missing : CommandError) (make : String → Command) :
      List String → Except CommandError Command
    | [] => .error missing
    | word :: _ => .ok (make word)

def usage : String :=
  String.join (List.map (· ++ "\n")
    ["ZenLang CLI Tool", "", "Usage:",
     "  zen run <file.zen>        Run a ZenLang program",
     "  zen build <file.zen>      Build/validate a ZenLang program",
     "  zen install <package>     Install a package",
     "  zen remove <package>      Remove a package",
     "  zen list                  List installed packages",
     "  zen version               Show version",
     "  zen help                  Show this help message"])

/-- What is printed when a command line asks for nothing. -/
def refusal : CommandError → String
  | .empty => usage
  | .noFile => "Error: No file specified"
  | .noPackage => "Error: No package specified"
  | .unknown word => "Unknown command: " ++ word ++ "\n" ++ usage

def finish {α : Type} (status : Int) : Action α :=
  throw (.exit (.int status))

def sourceOf (file : String) : Action String := do
  if ← pathPresent (.text file) then Action.readText (← openPath (.text file))
  else
    printLine ("Error: File '" ++ file ++ "' not found")
    finish 1

def runFile (file : String) : Action Unit := do
  let source ← sourceOf file
  beginSession
  tryCatch (discard <| runSource source) fun
    | .exit v => throw (.exit v)
    | .foreign name => throw (.foreign name)
    | .interrupt => do
        printLine "\n\nProgram interrupted by user (Ctrl+C)"
        finish 0
    | s => do
        if s.isEndOfInput then
          printLine "\n\nProgram terminated (EOF)"
          finish 0
        else
          printLine ("ZenLang Error: " ++ s.message (← get))
          finish 1

/-- Checks the program in a file without running it. -/
def buildFile (file : String) : Action Unit := do
  let source ← sourceOf file
  recover (discard <| load source) fun s => do
    printLine ("Build Error: " ++ s.message (← get))
    finish 1
  printLine ("✓ Build successful: " ++ file)

def perform : Command → Action Unit
  | .run file => runFile file
  | .build file => buildFile file
  | .install package => PackageStore.install package
  | .remove package => PackageStore.remove package
  | .list => PackageStore.list
  | .version => printLine "ZenLang v1.0.0"
  | .help => printLine usage

def performWords (words : List String) : Action Unit := do
  modify fun w => { w with arguments := words }
  match ofWords words with
  | .ok command => command.perform
  | .error e =>
      printLine (refusal e)
      finish 1

end Command

end ScriptLang
