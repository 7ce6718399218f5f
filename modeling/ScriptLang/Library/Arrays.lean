import ScriptLang.Call

/-!
# Functions on arrays

Most take any sequence; those that change an array leave everything else alone.
-/

namespace ScriptLang.Library

open ScriptLang.Action

/-- The fault for a member that values of this type lack. -/
def noAttribute {α : Type} (v : Value) (name : String) : Routine α :=
  match v with
  | .native (.make m) =>
      attributeFault ("type object '" ++ m.name ++ "' has no attribute '" ++ name ++ "'")
  | .package p =>
      attributeFault ("module 'src.runtime." ++ p.shownName ++ "' has no attribute '" ++
        name ++ "'")
  | v => attributeFault ("'" ++ v.typeName ++ "' object has no attribute '" ++ name ++ "'")

def push (arr v : Value) : Routine Value := do
  if let .array l := arr then modifyItems l (·.push v)
  return arr

def pop (arr : Value) : Routine Value := do
  match arr with
  | .array l =>
      let last := (← items l).back?.getD .null
      modifyItems l Array.pop
      return last
  | _ => return .null

def shift (arr : Value) : Routine Value := do
  match arr with
  | .array l =>
      let first := ((← items l)[0]?).getD .null
      modifyItems l fun xs => xs.extract 1 xs.size
      return first
  | _ => return .null

def unshift (arr v : Value) : Routine Value := do
  if let .array l := arr then modifyItems l fun xs => #[v] ++ xs
  return arr

/-- The items between two bounds; the second may be left out. -/
def slice (arr start stop : Value) : Routine Value := do
  let low ← toInt start
  match stop with
  | .null => Action.slice arr (some low) none
  | stop => Action.slice arr (some low) (some (← toInt stop))

/-- The place of the first item that equals a value, looking from place `i` on. -/
def indexFrom (s : Heap) (v : Value) : List Value → Nat → Except Fault (Option Nat)
  | [], _ => .ok none
  | x :: xs, i => do if ← s.equal valueDepth x v then return some i else indexFrom s v xs (i + 1)

/-- The place of the first item that equals a value, or of the first occurrence of a text. -/
def position (arr v : Value) : Routine (Option Nat) := do
  match arr with
  | .array l => ofExcept (indexFrom (← heap) v (← items l).toList 0)
  | .tuple xs => ofExcept (indexFrom (← heap) v xs 0)
  | .text s =>
      match v with
      | .text t => return Text.find t.toList s.toList
      | v => typeFault ("must be str, not " ++ v.typeName)
  | arr => noAttribute arr "index"

def indexOf (arr v : Value) : Routine Value := do
  match ← position arr v with
  | some i => return .int i
  | none => return .int (-1)

/-- The items of a list in order. -/
def sorted (xs : List Value) : Routine (List Value) := do
  let s ← heap
  let pairs ← ofExcept (sortByKeys (s.ordered .lt valueDepth) (xs.map fun x => (x, x)))
  return pairs.map (·.2)

/-- The items of an array in order, as a new array. -/
def sort (arr : Value) : Routine Value := do
  match arr with
  | .array l => arrayOf (← sorted (← items l).toList)
  | v => return v

def join (arr separator : Value) : Routine Value := do
  match arr with
  | .array l =>
      match separator with
      | .text sep =>
          let parts ← (← items l).toList.mapM text
          return .text (String.intercalate sep parts)
      | .bytes _ =>
          match (← items l).toList with
          | [] => return .bytes []
          | _ => typeFault "sequence item 0: expected a bytes-like object, str found"
      | v => noAttribute v "join"
  | v => return .text (← text v)

def filter (call : Caller) (arr f : Value) : Action Value := do
  match arr with
  | .array l => newArray (← partitionItems l fun v => do truthy (← call f [v])).1
  | v => return v

def map (call : Caller) (arr f : Value) : Action Value := do
  match arr with
  | .array l =>
      newArray (← foldItems l #[] fun _ v acc => do return .yield (acc.push (← call f [v])))
  | v => return v

def total (xs : List Value) (start : Value) : Routine Value :=
  xs.foldlM (fun acc x => add.plus acc x) start

def sum (arr : Value) : Routine Value := do
  match arr with
  | .array l => total (← items l).toList (.int 0)
  | v => return v

def avg (arr : Value) : Routine Value := do
  match arr with
  | .array l =>
      let xs ← items l
      if xs.isEmpty then return .int 0 else div (← total xs.toList (.int 0)) (.int xs.size)
  | _ => return .int 0

/-- The first of the values that none of the others comes before in the given order. -/
def extreme (op : OrderOp) : Value → List Value → Routine Value
  | best, [] => return best
  | best, x :: xs => do if ← ordered op x best then extreme op x xs else extreme op best xs

def extremeItem (op : OrderOp) (arr : Value) : Routine Value := do
  match arr with
  | .array l =>
      match (← items l).toList with
      | [] => return .null
      | x :: xs => extreme op x xs
  | _ => return .null

/-- How many numbers lie from a start up to an end, a step apart. -/
def rangeSize (start stop step : Int) : Nat :=
  if 0 < step then ((stop - start + step - 1).fdiv step).toNat
  else ((start - stop - step - 1).fdiv (-step)).toNat

/-- Numbers from a start up to an end, a step apart. -/
def numbers (start stop step : Int) : List Int :=
  (List.range (rangeSize start stop step)).map fun (i : Nat) => start + step * i

def rangeArray (start stop step : Int) : Routine Value := do
  let size ← sizedInteger (.int (rangeSize start stop step))
  checkSize size.toNat
  arrayOf ((numbers start stop step).map Value.int)

/-- The array of numbers in a range, which starts from zero when only an end is given. -/
def range (start stop step : Value) : Routine Value := do
  let a ← toInt start
  match stop with
  | .null => rangeArray 0 a 1
  | stop =>
      let b ← toInt stop
      let c ← toInt step
      if c = 0 then valueFault "range() arg 3 must not be zero"
      else rangeArray a b c

/-- Whether an array at a level is opened. -/
def opensAt (depth : Value) (level : Nat) : Routine Bool :=
  match depth with
  | .null => pure true
  | d => ordered .lt (.int level) d

/-- Appends one item to a list that is kept last item first, or what it is opened into. -/
def flattenStep (depth : Value) (level : Nat)
    (inner : List Value → List Value → Routine (List Value)) (acc : List Value) (x : Value) :
    Routine (List Value) := do
  match x with
  | .array l => if ← opensAt depth level then inner (← items l).toList acc else return x :: acc
  | x => return x :: acc

/-- Appends the items of a sequence to a list, those of nested arrays in place of the array as long
as `level` is below the depth. -/
def flattenInto (depth : Value) : Nat → Nat → List Value → List Value → Routine (List Value)
  | 0, _, _, _ => fail .tooDeep
  | fuel + 1, level, xs, acc =>
      xs.foldlM (flattenStep depth level (flattenInto depth fuel (level + 1))) acc

/-- The items with nested arrays opened up, to a depth or all the way. -/
def flatten (arr depth : Value) : Routine Value := do
  let out ← flattenInto depth valueDepth 0 (← iterate arr) []
  arrayOf out.reverse

def chunk (arr size : Value) : Routine Value := do
  let n ← length arr
  let k ← ofExcept size.integer
  if k = 0 then valueFault "range() arg 3 must not be zero"
  else
    let pieces ← (numbers 0 n k).mapM fun i => Action.slice arr (some i) (some (i + k))
    arrayOf pieces

/-- The first items as a tuple, the second items as a tuple, and so on, as long as all have one. -/
def tuples (xss : List (List Value)) : List Value :=
  match xss with
  | [] => []
  | _ =>
      let count := (xss.map List.length).min?.getD 0
      (List.range count).map fun i => .tuple (xss.map fun xs => xs.getD i .null)

/-- Sequences item by item. -/
def zip (args : List Value) : Routine Value := do
  arrayOf (tuples (← args.mapM iterate))

/-- The items without those that equal an earlier one. -/
def distinct (xs : List Value) : Routine (List Value) := do
  let s ← heap
  let out ← ofExcept (xs.foldlM (fun (seen : List Value) x => do
    if ← s.memberOf x seen then return seen else return x :: seen) [])
  return out.reverse

def unique (arr : Value) : Routine Value := do
  arrayOf (← distinct (← iterate arr))

def compact (arr : Value) : Routine Value := do
  let xs ← iterate arr
  let s ← heap
  arrayOf (xs.filter s.truthy)

/-- The items of a sequence whose membership in another is as wanted. -/
def membersOf (wanted : Bool) (arr other : Value) : Routine Value := do
  let xs ← iterate arr
  arrayOf (← xs.filterM fun x => do return (← contains other x) == wanted)

def union (a b : Value) : Routine Value := do
  unique (← add.plus a b)

end ScriptLang.Library
