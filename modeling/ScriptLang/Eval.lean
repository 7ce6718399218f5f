import ScriptLang.Package.Run
import ScriptLang.Value.Template

/-!
# Evaluation

What expressions and statements do. Each rule takes the number of rules that may still be nested
inside it, so that endless recursion ends in a fault; loops are bounded only by `loopLimit`.

Functions see the scope they were written in. Blocks and loops open no scope of their own, and an
assignment always sets a variable of the current scope. Methods and constructors run in a scope of
their own inside the global one, with the instance bound to `this`.
-/

namespace ScriptLang

open ScriptLang.Action

/-- The scope of what is outside all functions. -/
def globalScope : ScopeId := 0

/-- The depth of a machine's stack, in rules of evaluation. The language does not fix it: the rules
themselves take any depth. -/
def evaluationLimit : Nat := 960

namespace Action

/-- The value of a variable that a scope sees. -/
def lookup (scope : ScopeId) (x : String) : Action Value := do
  match (← code).lookup scope x with
  | some v => return v
  | none => fail (.unbound x)

/-- The class that a variable holds. -/
def classNamed (scope : ScopeId) (x : String) : Action Loc := do
  let v ← lookup scope x
  match (← code).class? v with
  | some l => return l
  | none => fail (.notAClass x)

/-- Sets a variable of a scope. -/
def assign (scope : ScopeId) (x : String) (v : Value) : Action Unit :=
  modifyCode (·.setVar scope x v)

/-- Opens a scope inside another one. -/
def openScope (parent : ScopeId) : Action ScopeId := do
  let e := (← code).scopes.size
  modifyCode fun s => { s with scopes := s.scopes.push { parent := some parent } }
  return e

/-- Sets the parameters that there are arguments for. -/
def bindGiven (scope : ScopeId) : List String → List Value → Action Unit
  | x :: xs, v :: vs => do
      assign scope x v
      bindGiven scope xs vs
  | _, _ => pure ()

/-- Sets all parameters, those without argument to null. -/
def bindAll (scope : ScopeId) : List String → List Value → Action Unit
  | [], _ => pure ()
  | x :: xs, vs => do
      assign scope x (vs.headD .null)
      bindAll scope xs vs.tail

/-- Runs the body of a function: the value it returns, or null. -/
def catchReturn (body : Action Unit) : Action Value :=
  tryCatch (do body; return .null) fun
    | .return v => return v
    | s => throw s

/-- Runs the body of a loop: whether the loop goes on after it. -/
def loopBody (body : Action Unit) : Action Bool :=
  tryCatch (do body; return true) fun
    | .break => return false
    | .continue => return true
    | s => throw s

/-- One round of a loop with a step after its body: whether the loop goes on after it. -/
def forRound (goes : Action Bool) (body step : Action Unit) : Action Bool := do
  if ← goes then
    if ← loopBody body then
      step
      return true
    else return false
  else return false

/-- A failure of an index or of its conversion, worded as such. -/
def indexFault {α : Type} (what : String) (act : Routine α) : Routine α :=
  tryCatch act fun
    | .fault f =>
        if f.kind = .index || f.kind = .value then fail (.badIndex what f.message)
        else fail f
    | s => throw s

/-- The item of an array or text at an index, or the entry of an object at the text of a key. -/
def indexValue (v index : Value) : Routine Value := do
  match v with
  | .array _ | .text _ => indexFault "Index" do getItem v (.int (← toInt index))
  | .object l => fieldOr l (.text (← text index)) .null
  | v => fail (.notIndexable "Cannot index" v.shownType)

/-- Sets the item of an array at an index, or the entry of an object at the text of a key. -/
def assignIndex (v index new : Value) : Routine Unit := do
  match v with
  | .array _ => indexFault "Index assignment" do setItem v (.int (← toInt index)) new
  | .object l =>
      let key ← text index
      modifyEntries l (·.put (.text key) new)
  | v => fail (.notIndexable "Cannot assign to index of" v.shownType)

def applyBinary (op : BinaryOp) (v w : Value) : Routine Value := do
  match op with
  | .add => add v w
  | .sub => sub v w
  | .mul => mul v w
  | .div => div v w
  | .mod => mod v w
  | .eq => return .bool (← equal v w)
  | .ne => return .bool (!(← equal v w))
  | .lt => return .bool (← ordered .lt v w)
  | .gt => return .bool (← ordered .gt v w)
  | .le => return .bool (← ordered .le v w)
  | .ge => return .bool (← ordered .ge v w)
  | .and => if ← truthy v then return w else return v
  | .or => if ← truthy v then return v else return w

def applyUnary (op : UnaryOp) (v : Value) : Routine Value := do
  match op with
  | .neg => neg v
  | .not => return .bool (!(← truthy v))

/-- The value of a property of an instance. -/
def getProperty (l : Loc) (name : String) : Routine Value := do
  match ((← heap).instanceAt l).2.lookup name with
  | some v => return v
  | none => fail (.noProperty name)

/-- Sets a property of an instance; a private one only from inside. -/
def setProperty (l : Loc) (name : String) (v : Value) (inside : Bool) : Action Unit := do
  let owner := ((← heap).instanceAt l).1
  let hidden := ((← code).property? owner name).any fun p => p.access == .ownClass
  if hidden && !inside then fail (.privateProperty name)
  else
    modifyCell l fun
      | .instance cls className props => .instance cls className (putField name v props)
      | c => c

/-- The member of a class: a static property or method of its own. -/
def classMember (l : Loc) (name : String) : Action Value := do
  let s ← code
  match s.ownStaticProperty? l name with
  | some p => return s.propertyValue p
  | none =>
      if s.hasOwnStaticMethod l name then newDerived (.staticMethod l name)
      else fail (.noStaticMember (s.classAt l).name name)

/-- The member of a value; `inside` when the value is written as `this`. -/
def member (v : Value) (name : String) (inside : Bool) : Action Value := do
  match v with
  | .instance l =>
      match ((← heap).instanceAt l).2.lookup name with
      | some v => return v
      | none => newDerived (.method l name inside)
  | .class l => classMember l name
  | .object l => fieldOr l (.text name) .null
  | v =>
      match ← v.member? name with
      | some w => return w
      | none => fail (.noMember name)

def setMember (v : Value) (name : String) (new : Value) : Action Unit := do
  match v with
  | .instance l => setProperty l name new true
  | .object l => modifyEntries l (·.put (.text name) new)
  | v => fail (.noPropertiesOn v.shownType)

/-- A new function in a scope; one with a name is also set as a variable there. -/
def closure (scope : ScopeId) (f : FunctionDef (List Stmt)) : Action Value := do
  let v := Value.function
    (← newFunction { name := f.name, params := f.params, body := f.body, scope })
  if let some x := f.name then assign scope x v
  return v

/-- Keeps the initial value of a property with the text of its class. -/
def setInitial (site index : Nat) (v : Value) : Action Unit :=
  modifyCode (·.give (site, index) v)

/-- Gives a declared property its initial value, the first time; null from then on. -/
def giveInitial (site index : Nat) (value : Action Value) : Action Unit := do
  let again := (← code).propertyValues.contains (site, index)
  setInitial site index (← if again then pure .null else value)

/-- Gives properties of a class definition, each with its place there, their initial values, which
`value` computes. -/
def giveInitials (value : Expr → Action Value) (site : Nat) (ps : List (PropertyDef Expr × Nat)) :
    Action Unit :=
  ps.forM fun (p, i) => p.value.forM fun e => giveInitial site i (value e)

/-- A new instance of a class with its own declared properties at their values. -/
def instantiate (cls : Loc) : Action Loc := do
  let s ← code
  let info := s.classAt cls
  let own := info.properties.filter fun p => !p.isStatic
  alloc (.instance cls info.name (own.map fun p => (p.name, s.propertyValue p)))

end Action

/-- Adds a declared property: a later declaration of the same kind and name takes the place of an
earlier one. -/
def addProperty (ps : List PropertyRef) (p : PropertyRef) : List PropertyRef :=
  match ps with
  | [] => [p]
  | q :: ps =>
      if q.isStatic == p.isStatic && q.name == p.name then p :: ps else q :: addProperty ps p

/-- A property of the class that a definition gives, from its place in the definition. -/
def PropertyDef.ref (p : PropertyDef Expr) (site index : Nat) : PropertyRef :=
  { name := p.name, access := p.access, isStatic := p.isStatic, source := .declared site index }

/-- The properties that a class declares; the last of one kind and name counts. -/
def propertyRefs (c : ClassDef Expr (List Stmt)) : List PropertyRef :=
  (c.properties.zipIdx.map fun (p, i) => p.ref c.site i).foldl addProperty []

mutual

/-- Evaluates an expression in a scope. -/
def evaluate : Nat → ScopeId → Expr → Action Value
  | 0, _, _ => fail .tooDeep
  | d + 1, scope, e => do
      match e with
      | .literal v => return .ofLiteral v
      | .name x => lookup scope x
      | .this => lookup scope "this"
      | .array xs => newArray (← evaluateAll d scope xs).toArray
      | .object fs =>
          let es ← fs.foldlM (fun (acc : Entries) f => do
            return acc.put (.text f.1) (← evaluate d scope f.2)) []
          newObject es
      | .function f => closure scope f
      | .call f xs =>
          let f ← evaluate d scope f
          let args ← evaluateAll d scope xs
          if f.isCallable then apply d f args else fail (.notCallable (← text f))
      | .member o name =>
          let v ← evaluate d scope o
          member v name (o matches .this)
      | .index a i =>
          let v ← evaluate d scope a
          indexValue v (← evaluate d scope i)
      | .unary op e => applyUnary op (← evaluate d scope e)
      | .binary op l r =>
          let v ← evaluate d scope l
          applyBinary op v (← evaluate d scope r)
      | .assign x e =>
          let v ← evaluate d scope e
          assign scope x v
          return v
      | .assignIndex (.name x) i e =>
          let a ← lookup scope x
          let index ← evaluate d scope i
          let v ← evaluate d scope e
          assignIndex a index v
          return v
      | .assignIndex .. => fail .badIndexTarget
      | .assignMember o name e =>
          let target ← evaluate d scope o
          let v ← evaluate d scope e
          setMember target name v
          return v
      | .new name xs =>
          let cls ← classNamed scope name
          let l ← instantiate cls
          let args ← evaluateAll d scope xs
          if let some m := (← code).method? false cls name args.length then
            discard <| runMethod d (some l) m args
          return .instance l

/-- Evaluates expressions from left to right. -/
def evaluateAll : Nat → ScopeId → List Expr → Action (List Value)
  | 0, _, [] => return []
  | 0, _, _ => fail .tooDeep
  | d + 1, scope, xs => xs.mapM (evaluate d scope)

/-- Runs a statement; the value of an expression or definition, null for anything else. -/
def execute : Nat → ScopeId → Stmt → Action Value
  | 0, _, _ => fail .tooDeep
  | d + 1, scope, s => do
      match s with
      | .expr e => evaluate d scope e
      | .block body =>
          executeAll d scope body
          return .null
      | .cond c thenBody elseBody =>
          if ← truthy (← evaluate d scope c) then executeAll d scope thenBody
          else if let some body := elseBody then executeAll d scope body
          return .null
      | .while c body =>
          repeatWhile (do
            if ← truthy (← evaluate d scope c) then loopBody (executeAll d scope body)
            else return false) loopLimit
          return .null
      | .doWhile body c =>
          repeatWhile (do
            if ← loopBody (executeAll d scope body) then truthy (← evaluate d scope c)
            else return false) loopLimit
          return .null
      | .for init c step body =>
          init.forM fun e => discard <| evaluate d scope e
          repeatWhile (forRound
            (do
              match c with
              | some e => truthy (← evaluate d scope e)
              | none => return true)
            (executeAll d scope body)
            (step.forM fun e => discard <| evaluate d scope e)) loopLimit
          return .null
      | .break => throw .break
      | .continue => throw .continue
      | .return none => throw (.return .null)
      | .return (some e) => throw (.return (← evaluate d scope e))
      | .classDef c => defineClass d scope c

/-- Runs statements one after the other. -/
def executeAll : Nat → ScopeId → List Stmt → Action Unit
  | 0, _, [] => pure ()
  | 0, _, _ => fail .tooDeep
  | d + 1, scope, body => body.forM fun s => discard <| execute d scope s

/-- A class definition. Initial values are computed when the definition is first run; running it
again sets them all to null, also for the classes it gave before. -/
def defineClass : Nat → ScopeId → ClassDef Expr (List Stmt) → Action Value
  | 0, _, _ => fail .tooDeep
  | d + 1, scope, c => do
      let parent ← c.parent.mapM (classNamed scope)
      giveInitials (evaluate d scope) c.site c.properties.zipIdx
      let l ← newClass
        { name := c.name, parent, methods := c.methods, properties := propertyRefs c }
      assign scope c.name (.class l)
      return .class l

/-- Runs a method or constructor, of an instance unless it is static. -/
def runMethod : Nat → Option Loc → MethodDef (List Stmt) → List Value → Action Value
  | 0, _, _, _ => fail .tooDeep
  | d + 1, self, m, args => do
      let scope ← openScope globalScope
      if let some l := self then assign scope "this" (.instance l)
      bindAll scope m.params args
      catchReturn (executeAll d scope m.body)

/-- Calls a method of an instance; a private one only from inside. -/
def callMethod : Nat → Loc → String → List Value → Bool → Action Value
  | 0, _, _, _, _ => fail .tooDeep
  | d + 1, receiver, name, args, inside => do
      let owner := ((← heap).instanceAt receiver).1
      match (← code).method? false owner name args.length with
      | none => fail (.noMethod name args.length)
      | some m =>
          if m.access == .ownClass && !inside then fail (.privateMethod name)
          else runMethod d (some receiver) m args

/-- Calls a static method of a class. -/
def callStatic : Nat → Loc → String → List Value → Action Value
  | 0, _, _, _ => fail .tooDeep
  | d + 1, owner, name, args => do
      match (← code).method? true owner name args.length with
      | none => fail (.noStaticMethod name args.length)
      | some m => runMethod d none m args

/-- Calls a value. -/
def apply : Nat → Value → List Value → Action Value
  | 0, _, _ => fail .tooDeep
  | d + 1, f, args => do
      match f with
      | .function l =>
          match (← code).closureAt? l with
          | none => return .null
          | some c =>
              let scope ← openScope c.scope
              bindGiven scope c.params args
              catchReturn (executeAll d scope c.body)
      | .native n => n.invoke (apply d) args
      | .derived l =>
          match (← heap).derivedAt? l with
          | none => return .null
          | some (.method receiver name inside) => callMethod d receiver name args inside
          | some (.staticMethod owner name) => callStatic d owner name args
          | some other => Library.callDerived (apply d) l other args
      | .bound receiver name => receiver.callBound name args
      | v => fail (.typeNotCallable v.typeName)

end

/-! ## Without a level left -/

section

variable (scope : ScopeId) (args : List Value)

attribute [local simp] evaluate evaluateAll execute executeAll defineClass runMethod callMethod
  callStatic apply

theorem evaluate_zero (e : Expr) : evaluate 0 scope e = fail .tooDeep := by
  simp

theorem evaluateAll_zero (x : Expr) (xs : List Expr) :
    evaluateAll 0 scope (x :: xs) = fail .tooDeep := by
  simp

theorem execute_zero (s : Stmt) : execute 0 scope s = fail .tooDeep := by
  simp

theorem executeAll_zero (s : Stmt) (body : List Stmt) :
    executeAll 0 scope (s :: body) = fail .tooDeep := by
  simp

theorem defineClass_zero (c : ClassDef Expr (List Stmt)) :
    defineClass 0 scope c = fail .tooDeep := by
  simp

theorem runMethod_zero (self : Option Loc) (m : MethodDef (List Stmt)) :
    runMethod 0 self m args = fail .tooDeep := by
  simp

theorem callMethod_zero (receiver : Loc) (name : String) (inside : Bool) :
    callMethod 0 receiver name args inside = fail .tooDeep := by
  simp

theorem callStatic_zero (owner : Loc) (name : String) :
    callStatic 0 owner name args = fail .tooDeep := by
  simp

theorem apply_zero (f : Value) : apply 0 f args = fail .tooDeep := by
  simp

end

end ScriptLang
