import ScriptLang.Native
import ScriptLang.Number.Decimal

/-!
# Values

What expressions evaluate to. Numbers, texts, bytes and tuples are themselves; arrays, objects,
instances, classes and functions live in the store and are referred to by location, so that two
variables can hold the same one.
-/

namespace ScriptLang

open ScriptLang.Number

/-- A place in the heap or in the code. -/
abbrev Loc := Nat

/-- The kinds of object that the window toolkit makes. -/
inductive ToolkitKind where
  | window | button | label | entry | area | check | list | flag
deriving DecidableEq

def ToolkitKind.name : ToolkitKind → String
  | .window => "Tk"
  | .button => "Button"
  | .label => "Label"
  | .entry => "Entry"
  | .area => "ScrolledText"
  | .check => "Checkbutton"
  | .list => "Listbox"
  | .flag => "BooleanVar"

/-- Objects of packages, each of which refers to a record kept by its package, and objects of the
implementation itself. -/
inductive Handle where
  | database (id : Nat)
  | query (id : Nat)
  | app (id : Nat)
  | listener (id : Nat)
  | server (id : Nat)
  | handler
  | widget (kind : ToolkitKind) (id : Nat)
  | scope (id : Nat)
  | body (function : Loc)
  | interpreter
deriving DecidableEq

/-- What variables hold. Of containers it is the place, so that they are shared. -/
inductive Value where
  | null
  | bool (b : Bool)
  | int (n : Int)
  | float (x : Float)
  /-- a float that is not a number; each computation that gives one gives one of its own -/
  | nan (tag : Nat)
  | text (s : String)
  | bytes (b : List UInt8)
  | tuple (items : List Value)
  | array (loc : Loc)
  | object (loc : Loc)
  | instance (loc : Loc)
  | class (loc : Loc)
  | function (loc : Loc)
  | derived (loc : Loc)
  | native (f : Native)
  | bound (receiver : Value) (name : String)
  | package (p : Package)
  | handle (h : Handle)

instance : Inhabited Value := ⟨.null⟩

def Handle.typeName : Handle → String
  | .database _ => "ZenDB"
  | .query _ => "Query"
  | .app _ => "App"
  | .listener _ => "FakeServer"
  | .server _ => "ZenHTTPServer"
  | .handler => "ZenHTTPHandler"
  | .widget kind _ => kind.name
  | .scope _ => "Environment"
  | .body _ => "Block"
  | .interpreter => "Interpreter"

/-- The name of the type of a value, as messages show it. -/
def Value.typeName : Value → String
  | .null => "NoneType"
  | .bool _ => "bool"
  | .int _ => "int"
  | .float _ | .nan _ => "float"
  | .text _ => "str"
  | .bytes _ => "bytes"
  | .tuple _ => "tuple"
  | .array _ => "list"
  | .object _ => "dict"
  | .instance _ => "ZenInstance"
  | .class _ => "ZenClass"
  | .function _ => "ZenFunction"
  | .derived _ => "function"
  | .native (.make _) => "type"
  | .native _ => "function"
  | .bound (.handle _) _ => "method"
  | .bound _ _ => "builtin_function_or_method"
  | .package _ => "module"
  | .handle h => h.typeName

/-- The name of the type of an argument, in messages that call null by its own name. -/
def Value.argumentType : Value → String
  | .null => "None"
  | v => v.typeName

def Value.fullTypeName : Value → String
  | .instance _ => "src.class_runtime.ZenInstance"
  | .class _ => "src.class_runtime.ZenClass"
  | .function _ => "src.interpreter.ZenFunction"
  | .handle (.database _) => "src.runtime.zendb.ZenDB"
  | .handle (.query _) => "src.runtime.zendb.Query"
  | .handle (.app _) => "src.runtime.zenwares.App"
  | .handle (.server _) => "src.runtime.zenhttp.ZenHTTPServer"
  | .handle (.scope _) => "src.interpreter.Environment"
  | .handle (.body _) => "src.ast.Block"
  | .handle .interpreter => "src.interpreter.Interpreter"
  | v => v.typeName

/-- The type of a value in the form in which messages show types. -/
def Value.shownType (v : Value) : String :=
  "<class '" ++ v.fullTypeName ++ "'>"

def Value.isCallable : Value → Bool
  | .function _ | .derived _ | .native _ | .bound .. => true
  | _ => false

def Value.ofLiteral : Literal → Value
  | .null => .null
  | .bool b => .bool b
  | .whole n => .int n
  | .real x => .float x
  | .text s => .text s

/-- A number: whole or not. -/
inductive Num where
  | whole (n : Int)
  | real (x : Float)

/-- The number a value is; truth values count as one and zero. -/
def Value.num? : Value → Option Num
  | .bool b => some (.whole (if b then 1 else 0))
  | .int n => some (.whole n)
  | .float x => some (.real x)
  | .nan _ => some (.real notANumber)
  | _ => none

/-- The whole number a value is; truth values count as one and zero. -/
def Value.whole? : Value → Option Int
  | .bool b => some (if b then 1 else 0)
  | .int n => some n
  | _ => none

/-- Exact comparison of numbers; `none` when one of them is not a number at all. -/
def Num.compare : Num → Num → Option Ordering
  | .whole m, .whole n => some (Ord.compare m n)
  | .whole m, .real y => (compareInt y m).map Ordering.swap
  | .real x, .whole n => compareInt x n
  | .real x, .real y => compareFloat x y

/-- Whether two values are the same key of an object: numbers by value, tuples item by item, and
what lives in the store by location. What is not a number is only the same as itself. -/
def Value.sameKey : Value → Value → Bool
  | .null, .null => true
  | .text s, .text t => s == t
  | .bytes b, .bytes c => b == c
  | .tuple xs, .tuple ys => sameKeys xs ys
  | .array l, .array k | .object l, .object k | .instance l, .instance k
  | .class l, .class k | .function l, .function k | .derived l, .derived k | .nan l, .nan k =>
      l == k
  | .native f, .native g => f == g
  | .bound v m, .bound w n => m == n && v.sameKey w
  | .package p, .package q => p == q
  | .handle h, .handle k => h == k
  | v, w =>
      match v.num?, w.num? with
      | some m, some n => m.compare n == some .eq
      | _, _ => false
where
  /-- `sameKey` item by item. -/
  sameKeys : List Value → List Value → Bool
    | [], [] => true
    | v :: vs, w :: ws => v.sameKey w && sameKeys vs ws
    | _, _ => false

/-- The type that keeps a value from being a key, if any: arrays and objects can change. -/
def Value.unhashable? : Value → Option String
  | .array _ => some "list"
  | .object _ => some "dict"
  | .tuple items => firstUnhashable items
  | _ => none
where
  /-- `unhashable?` of the first item that has one. -/
  firstUnhashable : List Value → Option String
    | [] => none
    | v :: vs =>
        match v.unhashable? with
        | some t => some t
        | none => firstUnhashable vs

/-- The entries of an object, in the order in which their keys were first set. -/
abbrev Entries := List (Value × Value)

/-- The value at a key. -/
def Entries.get? (es : Entries) (k : Value) : Option Value :=
  match es with
  | [] => none
  | e :: es => if e.1.sameKey k then some e.2 else Entries.get? es k

def Entries.has (es : Entries) (k : Value) : Bool :=
  es.any (·.1.sameKey k)

/-- Sets the value at a key: an old key keeps its place, a new one goes last. -/
def Entries.put (es : Entries) (k v : Value) : Entries :=
  match es with
  | [] => [(k, v)]
  | e :: es => if e.1.sameKey k then (e.1, v) :: es else e :: Entries.put es k v

def Entries.erase (es : Entries) (k : Value) : Entries :=
  match es with
  | [] => []
  | e :: es => if e.1.sameKey k then es else e :: Entries.erase es k

/-- Sets all entries of another object. -/
def Entries.merge (es fs : Entries) : Entries :=
  fs.foldl (fun acc e => acc.put e.1 e.2) es

def Entries.field? (es : Entries) (name : String) : Option Value :=
  Entries.get? es (.text name)

end ScriptLang
