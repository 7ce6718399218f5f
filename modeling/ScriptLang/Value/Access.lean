import ScriptLang.Position
import ScriptLang.Value.Arith

/-!
# Conversions, items and membership

Conversions to numbers, and what sequences and objects have in common: a length, items to iterate
over, membership, and access by index, key or slice.
-/

namespace ScriptLang

open ScriptLang.Number ScriptLang.Text

/-- The characters of a byte string, one per byte. -/
def bytesAsChars (b : List UInt8) : List Char :=
  b.map fun x => Char.ofNat x.toNat

/-- Reads a whole number from text. -/
def wholeOfText (s : String) : Except Fault Int :=
  match readWhole maxDigits s.toList with
  | .ok n => .ok n
  | .error why => .error (.other .value (notWholeMessage s why))

/-- The whole number of a finite float, toward zero. -/
def wholeOfFloat (x : Float) : Except Fault Int :=
  match truncate x with
  | some n => .ok n
  | none =>
      if x.isNaN then .error (.other .value "cannot convert float NaN to integer")
      else .error (.other .overflow "cannot convert float infinity to integer")

/-- A value as a whole number: floats lose their fraction and texts are read. -/
def Value.toInt : Value → Except Fault Int
  | .int n => .ok n
  | .bool b => .ok (if b then 1 else 0)
  | .float x => wholeOfFloat x
  | .nan _ => wholeOfFloat notANumber
  | .text s => wholeOfText s
  | .bytes b =>
      match readWhole maxDigits (bytesAsChars b) with
      | .ok n => .ok n
      | .error _ =>
          .error (.other .value ("invalid literal for int() with base 10: " ++ quotedBytes b))
  | v =>
      .error (.other .type
        ("int() argument must be a string, a bytes-like object or a real number, not '"
          ++ v.typeName ++ "'"))

/-- A value as a float: texts are read. -/
def Value.toFloat : Value → Except Fault Float
  | .text s =>
      match readFloat s.toList with
      | some x => .ok x
      | none => .error (.other .value (notFloatMessage s))
  | .bytes b =>
      match readFloat (bytesAsChars b) with
      | some x => .ok x
      | none =>
          .error (.other .value ("could not convert string to float: " ++ quotedBytes b))
  | v =>
      match v.num? with
      | some n => n.toFloat
      | none =>
          .error (.other .type
            ("float() argument must be a string or a real number, not '" ++ v.typeName ++ "'"))

/-- A number as a float, for functions that take numbers only. -/
def Value.real (v : Value) : Except Fault Float :=
  match v.num? with
  | some n => n.toFloat
  | none => .error (.other .type ("must be real number, not " ++ v.typeName))

/-- A whole number, for functions that take nothing else. -/
def Value.integer (v : Value) : Except Fault Int :=
  match v.whole? with
  | some n => .ok n
  | none =>
      .error (.other .type ("'" ++ v.typeName ++ "' object cannot be interpreted as an integer"))

/-- A bound of a slice; null leaves it open. -/
def Value.sliceIndex (v : Value) : Except Fault (Option Int) :=
  match v with
  | .null => .ok none
  | v =>
      match v.whole? with
      | some n => .ok (some n)
      | none =>
          .error (.other .type
            "slice indices must be integers or None or have an __index__ method")

/-- An index within the reach of sequences. -/
def smallIndex (kind : FaultKind) (n : Int) : Except Fault Int :=
  if n < indexLimit && -indexLimit ≤ n then .ok n
  else .error (.other kind "cannot fit 'int' into an index-sized integer")

namespace Action

/-- An integer that can count the items of a sequence. -/
def sizedInteger (v : Value) : Routine Int := do
  let n ← ofExcept v.integer
  if -indexLimit ≤ n && n < indexLimit then return n
  else fail (.other .overflow "Python int too large to convert to C ssize_t")

def toInt (v : Value) : Routine Int :=
  ofExcept v.toInt

def length (v : Value) : Routine Nat := do
  match v with
  | .text s => return s.length
  | .bytes b => return b.length
  | .tuple xs => return xs.length
  | .array l => return (← items l).size
  | .object l => return (← entries l).length
  | v => typeFault ("object of type '" ++ v.typeName ++ "' has no len()")

/-- The items one after the other: characters, bytes, items, or keys. -/
def iterate (v : Value) : Routine (List Value) := do
  match v with
  | .text s => return s.toList.map fun c => .text (String.singleton c)
  | .bytes b => return b.map fun x => .int x.toNat
  | .tuple xs => return xs
  | .array l => return (← items l).toList
  | .object l => return (← entries l).map (·.1)
  | v => typeFault ("'" ++ v.typeName ++ "' object is not iterable")

/-- Refuses values that cannot be keys. -/
def hashable (v : Value) : Routine Unit :=
  match v.unhashable? with
  | some t => fail (.unhashable t)
  | none => pure ()

def contains (container v : Value) : Routine Bool := do
  match container with
  | .text s =>
      match v with
      | .text t => return Text.contains t s
      | v => typeFault ("'in <string>' requires string as left operand, not " ++ v.typeName)
  | .bytes b =>
      match v with
      | .bytes c =>
          return c.isEmpty || (List.range (b.length + 1)).any fun i => c.isPrefixOf (b.drop i)
      | v =>
          match v.whole? with
          | some n =>
              if 0 ≤ n && n < 256 then return b.contains n.toNat.toUInt8
              else valueFault "byte must be in range(0, 256)"
          | none => typeFault ("a bytes-like object is required, not '" ++ v.typeName ++ "'")
  | .tuple xs => ofExcept ((← heap).memberOf v xs)
  | .array l => ofExcept ((← heap).memberOf v (← items l).toList)
  | .object l =>
      hashable v
      return (← entries l).has v
  | c => typeFault ("argument of type '" ++ c.typeName ++ "' is not iterable")

def indexWord (type : String) : String :=
  if type == "str" then "string" else if type == "bytes" then "byte" else type

/-- The place an index value means in a sequence. -/
def placeIn (type : String) (size : Nat) (index : Value) : Routine Nat := do
  match index.whole? with
  | none =>
      if type == "str" then
        typeFault ("string indices must be integers, not '" ++ index.typeName ++ "'")
      else
        typeFault (indexWord type ++ " indices must be integers or slices, not " ++ index.typeName)
  | some n =>
      let n ← ofExcept (smallIndex .index n)
      match place? size n with
      | some i => return i
      | none =>
          fail (.other .index
            ((if type == "bytes" then "index" else indexWord type ++ " index") ++ " out of range"))

def getItem (container key : Value) : Routine Value := do
  match container with
  | .text s =>
      let cs := s.toList
      let i ← placeIn "str" cs.length key
      return .text (String.ofList (cs.drop i |>.take 1))
  | .bytes b => return .int (b.getD (← placeIn "bytes" b.length key) 0).toNat
  | .tuple xs => return xs.getD (← placeIn "tuple" xs.length key) .null
  | .array l =>
      let xs ← items l
      return xs.getD (← placeIn "list" xs.size key) .null
  | .object l =>
      hashable key
      match (← entries l).get? key with
      | some v => return v
      | none => fail (.other .key (← quote key))
  | .native (.make m) => typeFault ("type '" ++ m.name ++ "' is not subscriptable")
  | c => typeFault ("'" ++ c.typeName ++ "' object is not subscriptable")

def setItem (container key v : Value) : Routine Unit := do
  match container with
  | .array l =>
      let xs ← items l
      match key.whole? with
      | none => typeFault ("list indices must be integers or slices, not " ++ key.typeName)
      | some n =>
          match place? xs.size (← ofExcept (smallIndex .index n)) with
          | some i => modifyItems l (·.setIfInBounds i v)
          | none => fail (.other .index "list assignment index out of range")
  | .object l =>
      hashable key
      modifyEntries l (·.put key v)
  | c => typeFault ("'" ++ c.typeName ++ "' object does not support item assignment")

def slice (container : Value) (start stop : Option Int) : Routine Value := do
  let low := start.getD 0
  match container with
  | .text s =>
      let cs := s.toList
      return .text (String.ofList (sliceList cs low (stop.getD cs.length)))
  | .bytes b => return .bytes (sliceList b low (stop.getD b.length))
  | .tuple xs => return .tuple (sliceList xs low (stop.getD xs.length))
  | .array l =>
      let xs ← items l
      newArray (sliceArray xs low (stop.getD xs.size))
  | .object _ => fail (.unhashable "slice")
  | .native (.make m) => typeFault ("type '" ++ m.name ++ "' is not subscriptable")
  | c => typeFault ("'" ++ c.typeName ++ "' object is not subscriptable")

/-- The value at a key of an object, or another value when there is none. -/
def fieldOr (l : Loc) (key : Value) (other : Value) : Routine Value := do
  hashable key
  return ((← entries l).get? key).getD other

end Action

end ScriptLang
