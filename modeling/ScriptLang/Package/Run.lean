import ScriptLang.Library.Methods
import ScriptLang.Package.Database
import ScriptLang.Package.Files
import ScriptLang.Package.Gui
import ScriptLang.Package.Http
import ScriptLang.Package.Math
import ScriptLang.Package.Site
import ScriptLang.Package.Terminal

/-!
# Calls of functions that programs do not define

Each function belongs to the language or to a package; its arguments are fitted to its parameters
before it runs. Packages also have members that are no functions.
-/

namespace ScriptLang

open ScriptLang.Action ScriptLang.Package

def Maker.run (m : Maker) (args : List Value) : Routine Value :=
  match m with
  | .app => Package.newApp (args.getD 0 .null) (args.getD 1 .null)
  | .database => do return .handle (.database (← Package.newDatabase (args.getD 0 .null)))
  | .query => Package.newQuery (args.getD 0 .null)
  | .server => do
      return .handle (.server (← Package.newServer (args.getD 0 .null) (args.getD 1 .null)))
  | _ => return .null

def Package.makers (p : Package) : List Maker :=
  match p with
  | .database => [.database, .query]
  | .terminal => [.app, .palette]
  | .http => [.server, .httpHandler]
  | .hosting => [.hostingHandler]
  | .site => [.siteHandler]
  | _ => []

namespace Native

def run (call : Caller) (f : Native) (args : List Value) : Action Value :=
  match f with
  | .core f => Library.runCore call f args
  | .output f => Package.runOutput f args
  | .prompt f => Package.runPrompt f args
  | .clock f => Package.runClock f args
  | .math f => Package.runMath f args
  | .system f => Package.runSystem f args
  | .terminal f => Package.runTerminal f args
  | .hosting f => Package.runHosting f args
  | .database f => Package.runDatabase f args
  | .files f => Package.runFiles call f args
  | .network f => Package.runNetwork f args
  | .site f => Package.runSite f args
  | .http f => Package.runHttp f args
  | .gui f => Package.runGui f args
  | .make m => m.run args

def invoke (call : Caller) (f : Native) (args : List Value) : Action Value := do
  f.run call (← ofExcept (f.signature.bind f.name args))

end Native

/-- Members of packages that are parts of the implementation. -/
def Package.hostMembers : List String :=
  ["os", "sys", "json", "time", "pytime", "pymath", "pyrandom", "hashlib", "urllib", "subprocess",
   "threading", "Thread", "HTTPServer", "BaseHTTPRequestHandler", "tk", "ttk", "messagebox",
   "scrolledtext", "filedialog"]

def Package.member? (p : Package) (name : String) : Routine (Option Value) := do
  match p.function? name with
  | some f => return some (.native f)
  | none =>
      match p.makers.find? (·.name == name) with
      | some m => return some (.native (.make m))
      | none =>
          match p with
          | .math => return mathConstant? name
          | _ => return none

/-- Whether the implementation may give a value a member that the language does not describe. -/
def Value.hasForeign (v : Value) (name : String) : Bool :=
  name.toList.head? == some '_' ||
    match v with
    | .package _ => Package.hostMembers.contains name
    | .function _ => ["body", "closure", "interpreter"].contains name
    | .text _ => Library.hostTextMembers.contains name
    | .bool _ | .int _ | .float _ | .nan _ => Library.hostNumberMembers.contains name
    | .native (.make m) => m != .palette
    | .bytes _ | .handle (.listener _) | .handle .handler | .handle (.widget ..)
    | .handle (.scope _) | .handle (.body _) | .handle .interpreter => true
    | _ => false

/-- The member that the language gives to a value other than an instance, a class or an object. -/
def Value.ownMember? (v : Value) (name : String) : Action (Option Value) := do
  match v with
  | .package p => p.member? name
  | .function l =>
      match (← code).closureAt? l with
      | none => return none
      | some f =>
          match name with
          | "name" => return some (f.name.elim .null .text)
          | "params" => return some (.array (← alloc (.parameters f.params)))
          | _ => return none
  | .native (.make .palette) => return (colours.lookup name).map .text
  | .handle (.app id) => appMember? id name
  | .handle (.database id) => databaseMember? id name
  | .handle (.query id) => queryMember? id name
  | .handle (.server id) => serverMember? id name
  | v => return Library.plainMember? v name

/-- The member of a value other than an instance, a class or an object. -/
def Value.member? (v : Value) (name : String) : Action (Option Value) := do
  match ← v.ownMember? name with
  | some w => return some w
  | none => if v.hasForeign name then throw (.foreign name) else return none

def Value.callBound (receiver : Value) (name : String) (args : List Value) : Routine Value :=
  match receiver with
  | .handle (.app id) => Package.callApp id name args
  | .handle (.database id) => Package.callDatabase id name args
  | .handle (.query id) => Package.callQuery id name args
  | .handle (.server id) => Package.callServer id name args
  | .handle _ => return .null
  | v => Library.callMethodOf v name args

end ScriptLang
