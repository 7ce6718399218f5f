import ScriptLang.Session

/-!
# Programs that use the implementation

A function has members that are parts of the implementation: its body, the scope it was written in
and the interpreter. The language gives them no meaning, and a run that comes to one ends there.
Here such programs go on: a scope can be given a variable or made anew, and the interpreter runs the
body of a function in a scope as if it were written there.
-/

namespace ScriptLang.Host

open ScriptLang.Action

/-- The part of the implementation that a function has as a member. -/
def part? (v : Value) (name : String) : Action (Option Value) := do
  match v, name with
  | .function l, "body" => return some (.handle (.body l))
  | .function l, "closure" =>
      return ((← code).closureAt? l).map fun f => .handle (.scope f.scope)
  | .function _, "interpreter" => return some (.handle .interpreter)
  | _, _ => return none

/-- The value of an expression, of which the members may be parts of the implementation. -/
def resolve (scope : ScopeId) : Expr → Action Value
  | .member o name => do
      let v ← resolve scope o
      match ← part? v name with
      | some w => return w
      | none => member v name (o matches .this)
  | e => evaluate evaluationLimit scope e

/-- Makes a scope anew: without variables, inside another scope or none. -/
def renew (id : ScopeId) (parent : Option ScopeId) : Action Value := do
  modifyCode fun s => { s with scopes := s.scopes.setIfInBounds id { parent } }
  return .null

/-- Calls a method of a part of the implementation. -/
def send (part : Handle) (name : String) (args : List Value) : Action Value := do
  match part, name, args with
  | .scope id, "set", [.text x, v] =>
      assign id x v
      return .null
  | .scope id, "__init__", [] => renew id none
  | .scope id, "__init__", [.handle (.scope parent)] => renew id (some parent)
  | .interpreter, "eval", [.handle (.body l), .handle (.scope id)] =>
      execute evaluationLimit id (.block (((← code).closureAt? l).elim [] (·.body)))
  | _, _, _ => throw (.foreign name)

/-- Evaluates an expression that may give or call a part of the implementation. -/
def perform (scope : ScopeId) : Expr → Action Value
  | .assign x e => do
      let v ← perform scope e
      assign scope x v
      return v
  | .call (.member o name) xs => do
      let v ← resolve scope o
      match v with
      | .handle (.scope id) => send (.scope id) name (← xs.mapM (resolve scope))
      | .handle .interpreter => send .interpreter name (← xs.mapM (resolve scope))
      | _ =>
          let f ← member v name (o matches .this)
          let args ← evaluateAll evaluationLimit scope xs
          if f.isCallable then callValue f args else fail (.notCallable (← text f))
  | e => resolve scope e

/-- Runs a statement, the class definitions in it numbered apart from all others. -/
def runStatement (s : Stmt) : Action Value := do
  let (s, sites) := (Numbering.stmt s).run (← code).sites
  modifyCode fun c => { c with sites }
  match s with
  | .expr e => perform globalScope e
  | s => execute evaluationLimit globalScope s

/-- Runs a source, of which the statements may use parts of the implementation. -/
def runSource (source : String) : Action Value := do
  let p ← load source
  loadIncludes includeLimit p.includes
  p.statements.foldlM (fun _ s => runStatement s) .null

end ScriptLang.Host
