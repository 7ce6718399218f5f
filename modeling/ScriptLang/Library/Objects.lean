import ScriptLang.Library.Arrays
import ScriptLang.Value.Document

/-!
# Functions on objects, and copies

Functions on objects leave other values alone or give an empty result for them.
-/

namespace ScriptLang.Library

open ScriptLang.Action

def keys (obj : Value) : Routine Value := do
  match obj with
  | .object l => arrayOf ((← entries l).map (·.1))
  | _ => arrayOf []

def values (obj : Value) : Routine Value := do
  match obj with
  | .object l => arrayOf ((← entries l).map (·.2))
  | _ => arrayOf []

def hasKey (obj key : Value) : Routine Value := do
  match obj with
  | .object _ => return .bool (← contains obj key)
  | _ => return .bool false

/-- A new object with the entries of both, the second winning. -/
def merge (a b : Value) : Routine Value := do
  match a, b with
  | .object l, .object k => newObject ((← entries l).merge (← entries k))
  | a, _ => return a

def pick (obj wanted : Value) : Routine Value := do
  match obj with
  | .object l =>
      let found ← (← iterate wanted).foldlM (fun (acc : Entries) k => do
        hashable k
        match (← entries l).get? k with
        | some v => return acc.put k v
        | none => return acc) []
      newObject found
  | _ => newObject []

def leaveOut (obj unwanted : Value) : Routine Value := do
  match obj with
  | .object l => newObject (← (← entries l).filterM fun e => do return !(← contains unwanted e.1))
  | _ => newObject []

def entryPairs (obj : Value) : Routine Value := do
  match obj with
  | .object l => arrayOf (← (← entries l).mapM fun e => arrayOf [e.1, e.2])
  | _ => arrayOf []

/-- The object with the given entries; those of fewer than two items are passed over. -/
def fromEntries (pairs : Value) : Routine Value := do
  let es ← (← iterate pairs).foldlM (fun (acc : Entries) e => do
    if (← length e) < 2 then return acc
    else
      let k ← getItem e (.int 0)
      let v ← getItem e (.int 1)
      hashable k
      return acc.put k v) []
  newObject es

def isEmpty (v : Value) : Routine Value := do
  match v with
  | .null => return .bool true
  | .text _ | .array _ | .object _ => return .bool ((← length v) == 0)
  | _ => return .bool false

def clone (v : Value) : Routine Value := do
  match v with
  | .array l => newArray (← items l)
  | .object l => newObject (← entries l)
  | v => return v

/-- The copies made so far, of cells and of classes. -/
structure Copies where
  cells : List (Loc × Value) := []
  classes : List (Loc × Loc) := []

def copyList (copy : Copies → Value → Action (Value × Copies)) :
    List Value → Copies → Action (List Value × Copies)
  | [], done => return ([], done)
  | v :: vs, done => do
      let (w, done) ← copy done v
      let (ws, done) ← copyList copy vs done
      return (w :: ws, done)

/-- Gives the copy `k` of a class copies of the values of its properties. -/
def fillClass (copy : Copies → Value → Action (Value × Copies)) (properties : List PropertyRef)
    (k : Loc) (done : Copies) : Action (Loc × Copies) := do
  let c ← code
  let (vs, done) ← copyList copy (properties.map c.propertyValue) done
  setProperties k ((properties.zip vs).map fun (p, v) => { p with source := .copied v })
  return (k, done)

/-- A copy of a class with copies, made by `copy`, of its ancestors and of the values of its
properties. Ancestors are copied first, and one of their values may be the class itself. -/
def copyClass (copy : Copies → Value → Action (Value × Copies)) (done : Copies) (l : Loc) :
    Action (Loc × Copies) := do
  match done.classes.lookup l with
  | some k => return (k, done)
  | none =>
      let info := (← code).classAt l
      let (parent, done) ← copyList copy (info.parent.toList.map .class) done
      match done.classes.lookup l with
      | some k => return (k, done)
      | none =>
          let c ← code
          let k ← newClass { info with parent := parent.head?.bind c.class? }
          fillClass copy info.properties k { done with classes := (l, k) :: done.classes }

/-- A copy of a value and of everything in it, nested at most the given number of levels deep. What
occurs more than once is copied once. Functions of the program and packages cannot be copied;
functions of other kinds are shared. -/
def copyDeep : Nat → Copies → Value → Action (Value × Copies)
  | 0, _, _ => fail .tooDeep
  | d + 1, done, v => do
      match v with
      | .tuple xs =>
          let (ys, done) ← copyList (copyDeep d) xs done
          return (.tuple ys, done)
      | .array l =>
          match done.cells.lookup l with
          | some w => return (w, done)
          | none =>
              let k ← alloc (.array #[])
              let done := { done with cells := (l, .array k) :: done.cells }
              let (ys, done) ← copyList (copyDeep d) (← items l).toList done
              setItems k ys.toArray
              return (.array k, done)
      | .object l =>
          match done.cells.lookup l with
          | some w => return (w, done)
          | none =>
              let k ← alloc (.object [])
              let done := { done with cells := (l, .object k) :: done.cells }
              let es ← entries l
              let (ks, done) ← copyList (copyDeep d) (es.map (·.1)) done
              let (vs, done) ← copyList (copyDeep d) (es.map (·.2)) done
              setEntries k (ks.zip vs)
              return (.object k, done)
      | .instance l =>
          match done.cells.lookup l with
          | some w => return (w, done)
          | none =>
              let (cls, props) := (← heap).instanceAt l
              let className := (← heap).classNameAt l
              let k ← alloc (.instance cls className [])
              let done := { done with cells := (l, .instance k) :: done.cells }
              let (owner, done) ← copyDeep d done (.class cls)
              let (vs, done) ← copyList (copyDeep d) (props.map (·.2)) done
              let cls := ((← code).class? owner).getD cls
              modifyHeap (·.set k (.instance cls className ((props.map (·.1)).zip vs)))
              return (.instance k, done)
      | .class l =>
          let (k, done) ← copyClass (copyDeep d) done l
          return (.class k, done)
      | .function _ | .package _ => typeFault "cannot pickle 'module' object"
      | v => return (v, done)

def deepCopy (v : Value) : Action Value := do
  return (← copyDeep valueDepth {} v).1

def parseJsonText (s : String) : Routine Value :=
  match Json.read s with
  | .ok d => ofDocument d
  | .error _ => return .null

/-- The value of a JSON text, given as text or bytes; null when it is not one. -/
def parseJson (v : Value) : Routine Value := do
  match v with
  | .text s => parseJsonText s
  | .bytes b =>
      match String.fromUTF8? ⟨b.toArray⟩ with
      | some s => parseJsonText s
      | none => return .null
  | _ => return .null

/-- The JSON text of a value; an empty object when it has none. -/
def toJson (v : Value) : Routine Value := do
  match (← heap).documentOf valueDepth [] v with
  | .ok d => return .text (Json.render .line d)
  | .error _ => return .text "\x7b\x7d"

end ScriptLang.Library
