import ScriptLang.Files.Access
import ScriptLang.Package.Shell

/-!
# The system around a program

Commands, environment variables, and the end of the program.
-/

namespace ScriptLang.Package

open ScriptLang.Action

def putEnvironment (name value : String) : Routine Unit :=
  modify fun w =>
    { w with environment := putField name value w.environment }

def environmentName (v : Value) : Routine String :=
  match v with
  | .text s => return s
  | v => typeFault ("str expected, not " ++ v.typeName)

/-- The words of a command: a text is the command itself, and in a sequence the first is. -/
def commandLine (v : Value) : Routine String := do
  match v with
  | .text s => return s
  | .bytes _ => pathText v
  | v =>
      let words ← (← iterate v).mapM pathText
      return words.headD ""

def runCommand (line : String) : Routine String := do
  let w ← get
  let s : Shell.State :=
    { bindings := w.environment, files := w.files, cwd := w.cwd, clock := w.clock }
  let (out, s) := Shell.run s line
  set { w with files := s.files }
  return String.ofList (Text.unifyLineEnds out.toList)

/-- Runs an action whose failures are reported as failures of what it does. -/
def reporting {α : Type} (what : String) (act : Routine α) : Routine α :=
  onFault act fun f => runtimeFault (what ++ " error: " ++ f.message)

def runSystem (f : SystemFn) (args : List Value) : Routine Value := do
  let a := args.getD 0 .null
  let b := args.getD 1 .null
  match f with
  | .exec => reporting "Command execution" do return .text (← runCommand (← commandLine a))
  | .exit => throw (.exit a)
  | .args => do arrayOf ((← get).arguments.map .text)
  | .env =>
      let name ← environmentName a
      return ((← get).environment.lookup name).elim .null .text
  | .setenv =>
      let value ← text b
      let name ← environmentName a
      if name.isEmpty then fail (.other .system "[Errno 22] Invalid argument")
      else if name.toList.contains '=' then valueFault "illegal environment variable name"
      else
        putEnvironment name value
        return .null
  | .platform => return .text "linux"
  | .version => return .text "1.0.0"

end ScriptLang.Package
