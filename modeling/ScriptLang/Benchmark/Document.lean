import ScriptLang.Fault
import ScriptLang.Format.Json
import ScriptLang.Text.Search

/-!
# Looking into documents

Reading parts of documents that other programs have written. A part of the wrong kind is a fault.
-/

namespace ScriptLang.Json

open ScriptLang.Number

def parse (s : String) : Except Fault Json :=
  match Json.read s with
  | .ok v => .ok v
  | .error .tooDeep => .error .tooDeep
  | .error (.digits n) => .error (.other .value (Json.errorMessage s (.digits n)))
  | .error e => .error (.other .json (Json.errorMessage s e))

def typeName : Json → String
  | .null => "NoneType"
  | .bool _ => "bool"
  | .whole _ => "int"
  | .real _ => "float"
  | .text _ => "str"
  | .list _ => "list"
  | .fields _ => "dict"

/-- The fault of using a document for what only others can do. -/
def lacks {α : Type} (v : Json) (what : String) : Except Fault α :=
  .error (.other .attribute s!"'{v.typeName}' object has no attribute '{what}'")

/-- The fields of a document; of fields with one name the last counts, in the place of the first. -/
def distinctFields (fs : List (String × Json)) : List (String × Json) :=
  fs.foldl (fun acc f => putField f.1 f.2 acc) []

/-- A field of a document, or another document where there is no such field. -/
def get (v : Json) (name : String) (other : Json) : Except Fault Json :=
  match v with
  | .fields fs => .ok (((distinctFields fs).lookup name).getD other)
  | v => v.lacks "get"

def entries (v : Json) : Except Fault (List (String × Json)) :=
  match v with
  | .fields fs => .ok (distinctFields fs)
  | v => v.lacks "items"

def values (v : Json) : Except Fault (List Json) :=
  match v with
  | .fields fs => .ok ((distinctFields fs).map (·.2))
  | v => v.lacks "values"

def truthy : Json → Bool
  | .null => false
  | .bool b => b
  | .whole n => n ≠ 0
  | .real x => x != 0
  | .text s => !s.isEmpty
  | .list items => !items.isEmpty
  | .fields fs => !fs.isEmpty

def listItems : Json → List Json
  | .list items => items
  | _ => []

def number? : Json → Option Float
  | .bool b => some (if b then 1 else 0)
  | .whole n => some (ofInt n)
  | .real x => some x
  | _ => none

/-- The float that a document gives, read from a text if need be. -/
def toFloat (v : Json) : Except Fault Float :=
  match v with
  | .text s =>
      match readFloat (Text.trim s).toList with
      | some x => .ok x
      | none => .error (.other .value (notFloatMessage s))
  | v =>
      match v.number? with
      | some x => .ok x
      | none =>
          .error (.other .type
            s!"float() argument must be a string or a real number, not '{v.typeName}'")

/-- The whole number of a document; zero when it is none. -/
def wholeOrZero : Json → Int
  | .whole n => n
  | .bool true => 1
  | _ => 0

def fixedText (places : Nat) (v : Json) : Except Fault String :=
  match v.number?, v with
  | some x, _ => .ok (fixed places x)
  | none, .text _ => .error (.other .value "Unknown format code 'f' for object of type 'str'")
  | none, v =>
      .error (.other .type s!"unsupported format string passed to {v.typeName}.__format__")

def shown : Json → String
  | .null => "None"
  | .bool b => if b then "True" else "False"
  | .whole n => wholeText n
  | .real x => written plain x
  | .text s => s
  | v => Json.render .line v

/-- Whether two simple documents are equal; numbers are compared by value. -/
def same (v w : Json) : Bool :=
  match v.number?, w.number? with
  | some x, some y => x == y
  | _, _ =>
      match v, w with
      | .null, .null => true
      | .text s, .text t => s == t
      | _, _ => false

/-- How many different documents are in a list; containers cannot be told apart. -/
def countDistinct (vs : List Json) : Except Fault Nat := do
  let kept ← vs.foldlM (fun (acc : List Json) v =>
    match v with
    | .list _ | .fields _ => .error (.unhashable v.typeName)
    | v => .ok (if acc.any (·.same v) then acc else v :: acc)) []
  return kept.length

end ScriptLang.Json
