import ScriptLang.Value.Show

/-!
# Equality, order and truth

Numbers are equal and ordered by value, whatever their form; texts by their characters; arrays and
tuples item by item; objects are equal when they have the same entries in any order. Everything else
is equal only to itself and has no order.
-/

namespace ScriptLang

open ScriptLang.Number

/-- Whether two values are one thing, whatever it equals. -/
def Value.sameThing : Value → Value → Bool
  | .array l, .array k | .object l, .object k | .instance l, .instance k
  | .class l, .class k | .function l, .function k | .derived l, .derived k | .nan l, .nan k =>
      l == k
  | _, _ => false

/-- Equality of two lists of the same length, item by item. -/
def allEqual (eq : Value → Value → Except Fault Bool) : List Value → List Value → Except Fault Bool
  | v :: vs, w :: ws => do if ← eq v w then allEqual eq vs ws else return false
  | _, _ => .ok true

/-- Whether every entry has its equal among the entries of another object. -/
def entriesEqual (eq : Value → Value → Except Fault Bool) (other : Entries) :
    Entries → Except Fault Bool
  | [] => .ok true
  | e :: es =>
      match other.get? e.1 with
      | none => .ok false
      | some v => do if ← eq e.2 v then entriesEqual eq other es else return false

/-- Equality of items, nested at most `depth` deep: one thing always equals itself. -/
def Heap.equal (s : Heap) : Nat → Value → Value → Except Fault Bool
  | 0, _, _ => .error .tooDeep
  | d + 1, v, w =>
      if v.sameThing w then .ok true
      else
        match v, w with
        | .array l, .array k =>
            let xs := s.items l
            let ys := s.items k
            if xs.size ≠ ys.size then .ok false else allEqual (s.equal d) xs.toList ys.toList
        | .tuple xs, .tuple ys =>
            if xs.length ≠ ys.length then .ok false else allEqual (s.equal d) xs ys
        | .object l, .object k =>
            let es := s.entries l
            let fs := s.entries k
            if es.length ≠ fs.length then .ok false else entriesEqual (s.equal d) fs es
        | _, _ => .ok (v.sameKey w)

inductive OrderOp where
  | lt | gt | le | ge
deriving DecidableEq

def OrderOp.spelling : OrderOp → String
  | .lt => "<"
  | .gt => ">"
  | .le => "<="
  | .ge => ">="

/-- Whether a relation holds for values that compare as given. -/
def OrderOp.holds : OrderOp → Ordering → Bool
  | .lt, o => o == .lt
  | .gt, o => o == .gt
  | .le, o => o != .gt
  | .ge, o => o != .lt

/-- The first items of two lists that differ. -/
def firstDifference (eq : Value → Value → Except Fault Bool) :
    List Value → List Value → Except Fault (Option (Value × Value))
  | v :: vs, w :: ws => do
      if ← eq v w then firstDifference eq vs ws else return some (v, w)
  | _, _ => .ok none

/-- Whether a relation holds between two values. -/
def Heap.ordered (s : Heap) (op : OrderOp) : Nat → Value → Value → Except Fault Bool
  | 0, _, _ => .error .tooDeep
  | d + 1, v, w =>
      let inLists (xs ys : List Value) : Except Fault Bool := do
        match ← firstDifference (s.equal d) xs ys with
        | some (x, y) => s.ordered op d x y
        | none => return op.holds (compare xs.length ys.length)
      match v, w with
      | .text a, .text b => .ok (op.holds (compare a b))
      | .bytes a, .bytes b => .ok (op.holds (compare (a.map UInt8.toNat) (b.map UInt8.toNat)))
      | .array l, .array k => inLists (s.items l).toList (s.items k).toList
      | .tuple xs, .tuple ys => inLists xs ys
      | _, _ =>
          match v.num?, w.num? with
          | some m, some n => .ok ((m.compare n).any op.holds)
          | _, _ => .error (.unordered op.spelling v.typeName w.typeName)

/-- Whether a value counts as true: everything but null, false, zero and what is empty. -/
def Heap.truthy (s : Heap) : Value → Bool
  | .null => false
  | .bool b => b
  | .int n => n ≠ 0
  | .float x => !(x == 0)
  | .text t => !t.isEmpty
  | .bytes b => !b.isEmpty
  | .tuple xs => !xs.isEmpty
  | .array l => !(s.items l).isEmpty
  | .object l => !(s.entries l).isEmpty
  | _ => true

def Heap.memberOf (s : Heap) (v : Value) : List Value → Except Fault Bool
  | [] => .ok false
  | x :: xs => do if ← s.equal valueDepth x v then return true else s.memberOf v xs

namespace Action

/-- Equality of values. What is not a number equals nothing, not even itself. -/
def equal (v w : Value) : Routine Bool := do
  match v with
  | .nan _ => return false
  | v => ofExcept ((← heap).equal valueDepth v w)

def ordered (op : OrderOp) (v w : Value) : Routine Bool := do
  ofExcept ((← heap).ordered op valueDepth v w)

def truthy (v : Value) : Routine Bool := do
  return (← heap).truthy v

end Action

/-- Where an item goes in a sorted run: the number of items in front of it when it is put behind all
that it is not smaller than, found by halving the part between `lo` and `hi`. -/
def insertionPoint (less : Value → Value → Except Fault Bool) (run : Array (Value × Value))
    (key : Value) : Nat → Nat → Nat → Except Fault Nat
  | 0, lo, _ => .ok lo
  | fuel + 1, lo, hi =>
      if lo < hi then do
        let mid := (lo + hi) / 2
        if ← less key (run.getD mid default).1 then insertionPoint less run key fuel lo mid
        else insertionPoint less run key fuel (mid + 1) hi
      else .ok lo

/-- Inserts the items one by one into a sorted run, behind their equals. -/
def insertAll (less : Value → Value → Except Fault Bool) (run : Array (Value × Value)) :
    List (Value × Value) → Except Fault (Array (Value × Value))
  | [] => .ok run
  | x :: xs => do
      let i ← insertionPoint less run x.1 (run.size + 1) 0 run.size
      insertAll less (run.insertIdxIfInBounds i x) xs

/-- Splits off the longest rising start of a list whose last taken item is `last`; falling starts
are split when `falling`. -/
def splitRun (less : Value → Value → Except Fault Bool) (falling : Bool) :
    Value → List (Value × Value) → Except Fault (List (Value × Value) × List (Value × Value))
  | _, [] => .ok ([], [])
  | last, x :: xs => do
      if (← less x.1 last) == falling then
        let (run, rest) ← splitRun less falling x.1 xs
        return (x :: run, rest)
      else return ([], x :: xs)

/-- Sorts items by their keys so that equal ones keep their order. The longest rising or strictly
falling start is taken as it is, and the other items are inserted one by one. -/
def sortByKeys (less : Value → Value → Except Fault Bool) (xs : List (Value × Value)) :
    Except Fault (List (Value × Value)) :=
  match xs with
  | [] => .ok []
  | [x] => .ok [x]
  | x :: y :: rest => do
      let falling ← less y.1 x.1
      let (run, rest) ← splitRun less falling y.1 rest
      let start := x :: y :: run
      let start := if falling then start.reverse else start
      return (← insertAll less start.toArray rest).toList

end ScriptLang
