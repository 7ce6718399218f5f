import ScriptLang.Value.Order

/-!
# Arithmetic on values

Whole numbers are unbounded and mix with floats by conversion; division always gives a float.
Addition also joins texts and sequences, and multiplication repeats them.
-/

namespace ScriptLang

open ScriptLang.Number

/-- The float of a number; whole numbers beyond the range of floats have none. -/
def Num.toFloat : Num → Except Fault Float
  | .real x => .ok x
  | .whole n =>
      if fitsFloat n then .ok (ofInt n)
      else .error (.other .overflow "int too large to convert to float")

/-- The operands of an operation on floats. -/
def Num.floats (m n : Num) : Except Fault (Float × Float) := do
  return (← m.toFloat, ← n.toFloat)

def Num.add : Num → Num → Except Fault Num
  | .whole m, .whole n => .ok (.whole (m + n))
  | m, n => do
      let (x, y) ← m.floats n
      return .real (x + y)

def Num.sub : Num → Num → Except Fault Num
  | .whole m, .whole n => .ok (.whole (m - n))
  | m, n => do
      let (x, y) ← m.floats n
      return .real (x - y)

def Num.mul : Num → Num → Except Fault Num
  | .whole m, .whole n => .ok (.whole (m * n))
  | m, n => do
      let (x, y) ← m.floats n
      return .real (x * y)

/-- The quotient of whole numbers: the float nearest to it. -/
def wholeQuotient (m n : Int) : Except Fault Float :=
  if n = 0 then .error (.divisionByZero "division by zero")
  else
    let x := ofRatio (decide (m < 0) != decide (n < 0)) m.natAbs n.natAbs
    match Binary.ofFloat x with
    | .finite .. => .ok x
    | _ => .error (.other .overflow "integer division result too large for a float")

/-- The quotient of numbers, always a float. -/
def Num.div : Num → Num → Except Fault Num
  | .whole m, .whole n => Num.real <$> wholeQuotient m n
  | m, n => do
      let (x, y) ← m.floats n
      if y == 0 then throw (.divisionByZero "float division by zero")
      return .real (x / y)

/-- The remainder of numbers, with the sign of the divisor. -/
def Num.mod : Num → Num → Except Fault Num
  | .whole m, .whole n =>
      if n = 0 then .error (.divisionByZero "integer modulo by zero") else .ok (.whole (m.fmod n))
  | m, n => do
      let (x, y) ← m.floats n
      if y == 0 then throw (.divisionByZero "float modulo")
      return .real (modulo x y)

/-- The quotient of numbers, rounded down. -/
def Num.floorDiv : Num → Num → Except Fault Num
  | .whole m, .whole n =>
      if n = 0 then .error (.divisionByZero "integer division or modulo by zero")
      else .ok (.whole (m.fdiv n))
  | m, n => do
      let (x, y) ← m.floats n
      if y == 0 then throw (.divisionByZero "float floor division by zero")
      return .real (floorQuotient x y)

def Num.neg : Num → Num
  | .whole n => .whole (-n)
  | .real x => .real (-x)

def Value.isSequence : Value → Bool
  | .text _ | .bytes _ | .tuple _ | .array _ => true
  | _ => false

/-- A sequence this long cannot be indexed. -/
def indexLimit : Int := 0x8000000000000000

/-- No memory holds a sequence this long. -/
def sizeLimit : Nat := 0x200000000

/-- How often a sequence is repeated: not at all when the number is negative. -/
def repetitions (times : Value) : Except Fault Nat :=
  match times.whole? with
  | none =>
      .error (.other .type
        ("can't multiply sequence by non-int of type '" ++ times.typeName ++ "'"))
  | some n =>
      if n < indexLimit && -indexLimit ≤ n then .ok n.toNat
      else .error (.other .overflow "cannot fit 'int' into an index-sized integer")

namespace Action

def number : Num → Routine Value
  | .whole n => return .int n
  | .real x => real x

/-- Fails when memory cannot hold a sequence of that size. -/
def checkSize (size : Nat) : Routine Unit :=
  if size < sizeLimit then return () else fail (.other .memory "")

def repeatedItems {α : Type} (n : Nat) (xs : List α) : Routine (List α) := do
  checkSize (n * xs.length)
  return if xs.isEmpty then [] else (List.replicate n xs).flatten

def repeated (v times : Value) : Routine Value := do
  let n ← ofExcept (repetitions times)
  match v with
  | .text s =>
      if indexLimit ≤ n * s.length then fail (.other .overflow "repeated string is too long")
      else return .text (String.ofList (← repeatedItems n s.toList))
  | .bytes b => return .bytes (← repeatedItems n b)
  | .tuple xs => return .tuple (← repeatedItems n xs)
  | .array l => arrayOf (← repeatedItems n (← items l).toList)
  | _ => return .null

/-- The sum of two values. A text joins with the text of anything. -/
def add (v w : Value) : Routine Value := do
  match v, w with
  | .text s, w => return .text (s ++ (← text w))
  | v, .text t => return .text ((← text v) ++ t)
  | v, w => plus v w
where
  /-- The sum of two values without conversions to text. -/
  plus (v w : Value) : Routine Value := do
    match v, w with
    | .array l, .array k => newArray ((← items l) ++ (← items k))
    | .array _, w =>
        typeFault ("can only concatenate list (not \"" ++ w.typeName ++ "\") to list")
    | .tuple xs, .tuple ys => return .tuple (xs ++ ys)
    | .tuple _, w =>
        typeFault ("can only concatenate tuple (not \"" ++ w.typeName ++ "\") to tuple")
    | .bytes a, .bytes b => return .bytes (a ++ b)
    | .bytes _, w => typeFault ("can't concat " ++ w.typeName ++ " to bytes")
    | .text s, .text t => return .text (s ++ t)
    | .text _, w => typeFault ("can only concatenate str (not \"" ++ w.typeName ++ "\") to str")
    | v, w =>
        match v.num?, w.num? with
        | some m, some n => do number (← ofExcept (m.add n))
        | _, _ => fail (.badOperands "+" v.typeName w.typeName)

def sub (v w : Value) : Routine Value :=
  match v.num?, w.num? with
  | some m, some n => do number (← ofExcept (m.sub n))
  | _, _ => fail (.badOperands "-" v.typeName w.typeName)

/-- The product of two numbers, or a sequence repeated. -/
def mul (v w : Value) : Routine Value :=
  match v.num?, w.num? with
  | some m, some n => do number (← ofExcept (m.mul n))
  | _, _ =>
      if v.isSequence then repeated v w
      else if w.isSequence then repeated w v
      else fail (.badOperands "*" v.typeName w.typeName)

def div (v w : Value) : Routine Value :=
  match v.num?, w.num? with
  | some m, some n => do number (← ofExcept (m.div n))
  | _, _ => fail (.badOperands "/" v.typeName w.typeName)

/-- The quotient of two numbers, rounded down. -/
def floorDiv (v w : Value) : Routine Value :=
  match v.num?, w.num? with
  | some m, some n => do number (← ofExcept (m.floorDiv n))
  | _, _ => fail (.badOperands "//" v.typeName w.typeName)

def neg (v : Value) : Routine Value :=
  match v.num? with
  | some n => number n.neg
  | none => fail (.badOperand "unary -" v.typeName)

end Action

end ScriptLang
