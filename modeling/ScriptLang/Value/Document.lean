import ScriptLang.Format.Json
import ScriptLang.Value.Access

/-!
# Values as documents

Which values have a JSON document, and the values that documents stand for. Tuples become lists,
and keys that are not texts become their texts.
-/

namespace ScriptLang

open ScriptLang.Number

def Value.fieldName : Value → Except Fault String
  | .text s => .ok s
  | .null => .ok "null"
  | .bool b => .ok (if b then "true" else "false")
  | .float x => .ok (written structured x)
  | .nan _ => .ok structured.nan
  | .int n =>
      match wholeText? n with
      | some s => .ok s
      | none => .error .tooManyDigits
  | v =>
      .error (.other .type ("keys must be str, int, float, bool or None, not " ++ v.typeName))

def fieldOf (document : Value → Except Fault Json) (e : Value × Value) :
    Except Fault (String × Json) := do
  let name ← e.1.fieldName
  return (name, ← document e.2)

/-- The document of a value inside the containers `seen`, nested at most `depth` deep. -/
def Heap.documentOf (s : Heap) : Nat → List Loc → Value → Except Fault Json
  | 0, _, _ => .error .tooDeep
  | d + 1, seen, v =>
      match v with
      | .null => .ok .null
      | .bool b => .ok (.bool b)
      | .int n => if (wholeText? n).isSome then .ok (.whole n) else .error .tooManyDigits
      | .float x => .ok (.real x)
      | .nan _ => .ok (.real notANumber)
      | .text t => .ok (.text t)
      | .tuple xs => Json.list <$> xs.mapM (s.documentOf d seen)
      | .array l =>
          if seen.contains l then .error (.other .value "Circular reference detected")
          else Json.list <$> (s.items l).toList.mapM (s.documentOf d (l :: seen))
      | .object l =>
          if seen.contains l then .error (.other .value "Circular reference detected")
          else
            Json.fields <$> (s.entries l).mapM (fieldOf (s.documentOf d (l :: seen)))
      | v =>
          .error (.other .type ("Object of type " ++ v.typeName ++ " is not JSON serializable"))

/-- Whether a value is a whole number without a text. -/
def Value.lacksText : Value → Bool
  | .int n => (wholeText? n).isNone
  | _ => false

/-- What a writer has put down, and whether that is all of it. -/
structure Draft where
  text : String
  whole : Bool

namespace Draft

/-- A text that is put down in one go. -/
def of (s : String) : Draft := ⟨s, true⟩

/-- Nothing is put down, and nothing more will be. -/
def stopped : Draft := ⟨"", false⟩

/-- What is put down one after the other; a writer that has stopped does not go on. -/
def andThen (a b : Draft) : Draft :=
  if a.whole then ⟨a.text ++ b.text, b.whole⟩ else a

/-- Parts one after the other, each told what stands before it: something before the first one, and
something between them. -/
def sequence : String → String → List (String → Draft) → Draft
  | _, _, [] => of ""
  | before, between, part :: parts => (part before).andThen (sequence between between parts)

/-- A list item with what stands before it. A number without a text stops the writer at once. -/
def item (part : Value → Draft) (v : Value) (before : String) : Draft :=
  if v.lacksText then stopped else (of before).andThen (part v)

/-- A field with what stands before it. A key without a name stops the writer at once. -/
def field (part : Value → Draft) (e : Value × Value) (before : String) : Draft :=
  match e.1.fieldName with
  | .ok name => (of (before ++ Json.quote name ++ ": ")).andThen (part e.2)
  | .error _ => stopped

/-- A list at a level of nesting; the bracket goes with the first item. -/
def list (f : Json.Layout) (level : Nat) (part : Value → Draft) (xs : List Value) : Draft :=
  let (first, between, last) := f.marks level
  if xs.isEmpty then of "[]"
  else (sequence ("[" ++ first) between (xs.map (item part))).andThen (of (last ++ "]"))

/-- An object at a level of nesting; the brace goes before the first field. -/
def object (f : Json.Layout) (level : Nat) (part : Value → Draft) (es : Entries) : Draft :=
  let (first, between, last) := f.marks level
  if es.isEmpty then of "\x7b\x7d"
  else
    ((of ("\x7b" ++ first)).andThen (sequence "" between (es.map (field part)))).andThen
      (of (last ++ "\x7d"))

end Draft

/-- What a writer puts down of a value at a level of nesting, inside the containers `seen` and
nested at most `depth` deep: it stops at the first part that has no document. -/
def Heap.writtenPart (s : Heap) (f : Json.Layout) : Nat → Nat → List Loc → Value → Draft
  | 0, _, _, _ => .stopped
  | d + 1, level, seen, v =>
      match v with
      | .tuple xs => .list f level (s.writtenPart f d (level + 1) seen) xs
      | .array l =>
          if seen.contains l then .stopped
          else .list f level (s.writtenPart f d (level + 1) (l :: seen)) (s.items l).toList
      | .object l =>
          if seen.contains l then .stopped
          else .object f level (s.writtenPart f d (level + 1) (l :: seen)) (s.entries l)
      | v =>
          match s.documentOf 1 [] v with
          | .ok doc => .of (Json.render f doc)
          | .error _ => .stopped

mutual

/-- The value of a document, its containers new. -/
def Action.ofDocument : Json → Routine Value
  | .null => return .null
  | .bool b => return .bool b
  | .whole n => return .int n
  | .real x => Action.real x
  | .text s => return .text s
  | .list items => do Action.newArray (← Action.ofItems items).toArray
  | .fields fs => do Action.newObject (← Action.ofFields fs [])

def Action.ofItems : List Json → Routine (List Value)
  | [] => return []
  | v :: vs => do
      let x ← Action.ofDocument v
      let xs ← Action.ofItems vs
      return x :: xs

/-- The entries of fields; of fields with one name the last counts. -/
def Action.ofFields : List (String × Json) → Entries → Routine Entries
  | [], acc => return acc
  | (k, v) :: fs, acc => do
      let x ← Action.ofDocument v
      Action.ofFields fs (acc.put (.text k) x)

end

namespace Action

def jsonText (f : Json.Layout) (v : Value) : Routine String := do
  return Json.render f (← ofExcept ((← heap).documentOf valueDepth [] v))

/-- What a writer puts down of a value, and why it stops before the end, if it does. -/
def jsonPart (f : Json.Layout) (v : Value) : Routine (String × Option Fault) := do
  let s ← heap
  match s.documentOf valueDepth [] v with
  | .ok doc => return (Json.render f doc, none)
  | .error e => return ((s.writtenPart f valueDepth 0 [] v).text, some e)

def readJson (s : String) : Routine Value :=
  match Json.read s with
  | .ok d => ofDocument d
  | .error .tooDeep => fail .tooDeep
  | .error (.digits n) => valueFault (Json.errorMessage s (.digits n))
  | .error e => fail (.other .json (Json.errorMessage s e))

end Action

end ScriptLang
