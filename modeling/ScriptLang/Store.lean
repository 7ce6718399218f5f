import ScriptLang.Value
import Std.Data.HashMap

/-!
# The store

Everything that can change while a program runs, in two parts. The heap has the cells that arrays,
objects, instances and derived functions live in. The code has what comes from the program text:
scopes of variables, functions, classes and the values of declared properties. Locations are handed
out in order and never taken back, and a scope is always younger than its parent.
-/

namespace ScriptLang

/-- The place of a scope. -/
abbrev ScopeId := Nat

/-- Variables, and the scope to look in for those that are not here. -/
structure Scope where
  vars : Std.HashMap String Value := {}
  parent : Option ScopeId := none

/-- A function of the program with the scope it was written in. -/
structure Closure where
  name : Option String
  params : List String
  body : List Stmt
  scope : ScopeId

/-- Where the value of a property is kept. -/
inductive PropertySource where
  /-- with the program text: the number of the class definition and the place in it -/
  | declared (site index : Nat)
  /-- in a copy of a class, which has a value of its own -/
  | copied (v : Value)

/-- A property as its class has it. -/
structure PropertyRef where
  name : String
  access : Access
  isStatic : Bool
  source : PropertySource

/-- A class: its methods in the order of their declaration, and its properties. -/
structure ClassInfo where
  name : String
  parent : Option Loc
  methods : List (MethodDef (List Stmt))
  properties : List PropertyRef

/-- Functions made from other functions or from methods. -/
inductive Derived where
  /-- a method of an instance; `inside` when taken from `this` -/
  | method (receiver : Loc) (name : String) (inside : Bool)
  | staticMethod (owner : Loc) (name : String)
  | memoized (f : Value) (cache : List (String × Value))
  | curried (f : Value) (arity : Value)
  /-- a curried function and the arguments it has so far -/
  | applied (curried : Loc) (args : List Value)
  | composed (fs : List Value)
  | piped (fs : List Value)
  | constant (v : Value)
  | negated (f : Value)
  /-- a function that runs once; its result, once it was called -/
  | once (f : Value) (called : Bool) (result : Value)
  /-- a function that runs only when enough time has passed since it last did -/
  | debounced (f delay : Value) (last : Float)
  | throttled (f limit : Value) (last : Float)
  /-- what a button calls when it is clicked -/
  | clickHandler (widget : String)

namespace Derived

/-- A memoized function after a call: the results it keeps have one more. -/
def keeping (key : String) (v : Value) : Derived → Derived
  | .memoized f cache => .memoized f ((key, v) :: cache)
  | d => d

/-- A function that runs once, with the result of its call. -/
def finished (v : Value) : Derived → Derived
  | .once f _ _ => .once f true v
  | d => d

/-- A function that waits between its calls, after one. -/
def lastRun (now : Float) : Derived → Derived
  | .debounced f delay _ => .debounced f delay now
  | .throttled f limit _ => .throttled f limit now
  | d => d

end Derived

/-- What a location of the heap holds. An instance has its class and the name of that. The names of
the parameters of a function are an array that belongs to the function. -/
inductive Cell where
  | array (items : Array Value)
  | parameters (names : List String)
  | object (entries : Entries)
  | instance (cls : Loc) (className : String) (props : List (String × Value))
  | derived (d : Derived)

instance : Inhabited Cell := ⟨.array #[]⟩

/-- A cell with other items, if it is an array. -/
def Cell.mapItems (f : Array Value → Array Value) : Cell → Cell
  | .array xs => .array (f xs)
  | c => c

/-- The containers and instances of a program. -/
structure Heap where
  cells : Array Cell := #[]

/-- The current value of a property with an initial value, and how often it was given one. -/
structure Given where
  value : Value
  times : Nat

/-- Scopes, functions, classes, and the values of declared properties. -/
structure Code where
  scopes : Array Scope := #[]
  functions : Array Closure := #[]
  classes : Array ClassInfo := #[]
  /-- what properties with initial values were given, by site and index; none before the first
  evaluation -/
  propertyValues : Std.HashMap (Nat × Nat) Given := {}
  /-- how many class definitions have numbers so far -/
  sites : Nat := 0

structure Store extends Heap, Code

namespace Heap

def alloc (s : Heap) (c : Cell) : Loc × Heap :=
  (s.cells.size, { s with cells := s.cells.push c })

def set (s : Heap) (l : Loc) (c : Cell) : Heap :=
  { s with cells := s.cells.setIfInBounds l c }

def items (s : Heap) (l : Loc) : Array Value :=
  match s.cells[l]? with
  | some (.array xs) => xs
  | some (.parameters names) => (names.map Value.text).toArray
  | _ => #[]

/-- Whether a location holds the names of the parameters of a function. -/
def hasParameters (s : Heap) (l : Loc) : Bool :=
  s.cells[l]? matches some (.parameters _)

def entries (s : Heap) (l : Loc) : Entries :=
  match s.cells[l]? with
  | some (.object es) => es
  | _ => []

def instanceAt (s : Heap) (l : Loc) : Loc × List (String × Value) :=
  match s.cells[l]? with
  | some (.instance c _ props) => (c, props)
  | _ => (0, [])

def classNameAt (s : Heap) (l : Loc) : String :=
  match s.cells[l]? with
  | some (.instance _ name _) => name
  | _ => ""

def derivedAt? (s : Heap) (l : Loc) : Option Derived :=
  match s.cells[l]? with
  | some (.derived d) => some d
  | _ => none

end Heap

namespace Code

def classAt (s : Code) (l : Loc) : ClassInfo :=
  s.classes[l]?.getD { name := "", parent := none, methods := [], properties := [] }

/-- The class that a value is, among those that there are. -/
def class? (s : Code) : Value → Option Loc
  | .class l => if l < s.classes.size then some l else none
  | _ => none

def closureAt? (s : Code) (l : Loc) : Option Closure :=
  s.functions[l]?

def setVar (s : Code) (e : ScopeId) (x : String) (v : Value) : Code :=
  { s with scopes := s.scopes.modify e fun c => { c with vars := c.vars.insert x v } }

/-- How often a property was given a value. -/
def times (s : Code) (key : Nat × Nat) : Nat :=
  s.propertyValues[key]?.elim 0 (·.times)

/-- Gives a property a value, by its site and index. -/
def give (s : Code) (key : Nat × Nat) (v : Value) : Code :=
  { s with propertyValues := s.propertyValues.insert key ⟨v, s.times key + 1⟩ }

/-- The value that a property was given last. -/
def given? (s : Code) (key : Nat × Nat) : Option Value :=
  s.propertyValues[key]?.map (·.value)

/-- Looks for a variable in a scope and those around it, `fuel` scopes at most. -/
def lookupFrom (s : Code) : Nat → ScopeId → String → Option Value
  | 0, _, _ => none
  | fuel + 1, e, x =>
      match s.scopes[e]? with
      | none => none
      | some c =>
          match c.vars[x]? with
          | some v => some v
          | none =>
              match c.parent with
              | some p => lookupFrom s fuel p x
              | none => none

/-- The value of a variable as seen from a scope. A scope is younger than those around it, so its
number bounds how many there are. -/
def lookup (s : Code) (e : ScopeId) (x : String) : Option Value :=
  s.lookupFrom (e + 1) e x

/-- The value of a property; null when it was given none. -/
def propertyValue (s : Code) (p : PropertyRef) : Value :=
  match p.source with
  | .declared site index => (s.given? (site, index)).getD .null
  | .copied v => v

/-- Looks for something in a class and its ancestors, nearest first, `fuel` classes at most. -/
def findInChain {α : Type} (s : Code) (find : ClassInfo → Option α) : Nat → Loc → Option α
  | 0, _ => none
  | fuel + 1, l =>
      let c := s.classAt l
      match find c with
      | some x => some x
      | none =>
          match c.parent with
          | some p => findInChain s find fuel p
          | none => none

/-- The method that a class itself offers for a name and number of arguments: the first with that
many parameters, or else the first with that name. -/
def ownMethod (isStatic : Bool) (name : String) (count : Nat) (c : ClassInfo) :
    Option (MethodDef (List Stmt)) :=
  let named := c.methods.filter fun m => m.isStatic == isStatic && m.name == name
  (named.find? (·.params.length == count)).or named.head?

/-- The method that a class or its nearest ancestor offers for a name and number of arguments. -/
def method? (s : Code) (isStatic : Bool) (l : Loc) (name : String) (count : Nat) :
    Option (MethodDef (List Stmt)) :=
  s.findInChain (ownMethod isStatic name count) s.classes.size l

/-- The non-static property of a class or its nearest ancestor with a given name. -/
def property? (s : Code) (l : Loc) (name : String) : Option PropertyRef :=
  s.findInChain (fun c => c.properties.find? fun p => !p.isStatic && p.name == name)
    s.classes.size l

def ownStaticProperty? (s : Code) (l : Loc) (name : String) : Option PropertyRef :=
  (s.classAt l).properties.find? fun p => p.isStatic && p.name == name

def hasOwnStaticMethod (s : Code) (l : Loc) (name : String) : Bool :=
  (s.classAt l).methods.any fun m => m.isStatic && m.name == name

end Code

end ScriptLang
