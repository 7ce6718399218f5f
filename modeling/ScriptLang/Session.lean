import ScriptLang.Eval
import ScriptLang.Program.Number

/-!
# Sessions

Source texts are read, their includes are loaded, and their statements run one after the other in
the global scope, which the session keeps. An include names a package, or, with a slash in it, a
script that is run in the same session.
-/

namespace ScriptLang

open ScriptLang.Action

/-- The variables a session starts with: the functions every program has. -/
def startingVariables : Std.HashMap String Value :=
  CoreFn.all.foldl (fun m f => m.insert f.name (.native (.core f))) {}

def World.begin (w : World) : World :=
  { w with heap := {}, code := { scopes := #[{ vars := startingVariables }] } }

namespace Action

/-- Starts another session in the same world. -/
def beginSession : Action Unit :=
  modifyCode fun s =>
    { s with scopes := s.scopes.setIfInBounds globalScope { vars := startingVariables } }

def load (source : String) : Routine Program :=
  match scan source with
  | .error e => fail (.scan e)
  | .ok tokens =>
      match Program.parse tokens with
      | .error e => fail (.parse e)
      | .ok p => return p

/-- Joins a path to a directory; an absolute path stays. -/
def joinPath (dir path : String) : String :=
  if path.startsWith "/" then path
  else if dir.isEmpty || dir.endsWith "/" then dir ++ path
  else dir ++ "/" ++ path

/-- The places where the script of an include is looked for. -/
def scriptPlaces (installDir name : String) : List String :=
  let file := name ++ ".zen"
  [file, joinPath "zenlang" file, joinPath (installDir ++ "/../..") file]

/-- Runs a statement in a scope, the class definitions in it numbered apart from all others. -/
def runStatement (scope : ScopeId) (s : Stmt) : Action Value := do
  let (s, sites) := (Numbering.stmt s).run (← code).sites
  modifyCode fun c => { c with sites }
  execute evaluationLimit scope s

/-- Runs the statements of a program: the value of the last one. -/
def runStatements (statements : List Stmt) : Action Value :=
  statements.foldlM (fun _ s => runStatement globalScope s) .null

mutual

/-- Loads what a program includes, nested at most the given number of levels deep. -/
def loadIncludes : Nat → List String → Action Unit
  | 0, [] => pure ()
  | 0, _ => fail .tooDeep
  | d + 1, names => names.forM fun name => loadInclude d name

def loadInclude : Nat → String → Action Unit
  | 0, _ => fail .tooDeep
  | d + 1, name => do
      if name.toList.contains '/' then
        let w ← get
        let places := scriptPlaces w.installDir name
        match places.find? (w.files.present w.cwd) with
        | none => fail (.noScript name places)
        | some path =>
            let p ← load (← readText path)
            loadIncludes d p.includes
            discard <| runStatements p.statements
      else
        match Package.ofName? name with
        | some p => assign globalScope name (.package p)
        | none =>
            let w ← get
            let installed := joinPath (Path.text w.home) (".zenpkgs/" ++ name)
            if w.files.present w.cwd installed then pure () else fail (.noPackage name)

end

/-- How deep includes may nest. -/
def includeLimit : Nat := 480

/-- Runs a program: the value of its last statement. -/
def runProgram (p : Program) : Action Value := do
  loadIncludes includeLimit p.includes
  runStatements p.statements

def runSource (source : String) : Action Value := do
  runProgram (← load source)

/-- The value of an expression in a scope that has only the functions every program has. -/
def evaluateAlone (source : String) : Action Value := do
  let p ← load ("(" ++ source ++ ");")
  let scope := (← code).scopes.size
  modifyCode fun s => { s with scopes := s.scopes.push { vars := startingVariables } }
  match p.statements with
  | [s] => runStatement scope s
  | _ => return .null

/-- Calls a function value from outside the program. -/
def callValue : Caller := apply evaluationLimit

/-- The variables of a session, without the functions it still has from its start. -/
def ownVariables : Action (List (String × Value)) := do
  match (← code).scopes[globalScope]? with
  | none => return []
  | some scope =>
      return scope.vars.toList.filter fun (x, v) =>
        match startingVariables[x]? with
        | some w => !v.sameKey w
        | none => true

/-- Whether a name is bound in scopes nested in the global one, outermost first. -/
def isBound (name : String) (scopes : List (List String)) : Action Bool := do
  let s ← code
  return (s.lookup globalScope name).isSome || scopes.any (·.contains name)

/-- A new instance of a class, all its own properties null, no constructor run. -/
def bareInstance (cls : Loc) : Action Loc := do
  let info := (← code).classAt cls
  let own := info.properties.filter fun p => !p.isStatic
  alloc (.instance cls info.name (own.map fun p => (p.name, .null)))

end Action

end ScriptLang
