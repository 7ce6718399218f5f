import ScriptLang.Library.Numbers

/-!
# Functions on functions

Functions that go over arrays with a function, and functions that make functions. An array that
changes while it is gone over is seen as it is at each step.
-/

namespace ScriptLang.Library

open ScriptLang.Action ScriptLang.Number

def forEach (call : Caller) (arr f : Value) : Action Value := do
  if let .array l := arr then
    foldItems l () fun _ v _ => do
      discard <| call f [v]
      return .yield ()
  return arr

/-- Combines the items of an array from the left, from a start value or the first item on. -/
def reduce (call : Caller) (arr f start : Value) : Action Value := do
  match arr with
  | .array l =>
      let xs ← items l
      if xs.isEmpty then return start
      else
        let (first, begin) :=
          match start with
          | .null => (xs.getD 0 .null, 1)
          | v => (v, 0)
        (List.range' begin (xs.size - begin)).foldlM (fun acc (i : Nat) => do
          let v ← getItem arr (.int i)
          call f [acc, v]) first
  | _ => return start

def every (call : Caller) (arr f : Value) : Action Value := do
  match arr with
  | .array l =>
      return .bool (← findItem l fun v => do return !(← truthy (← call f [v]))).isNone
  | _ => return .bool false

def someOf (call : Caller) (arr f : Value) : Action Value := do
  match arr with
  | .array l => return .bool (← findItem l fun v => do truthy (← call f [v])).isSome
  | _ => return .bool false

def find (call : Caller) (arr f : Value) : Action Value := do
  match arr with
  | .array l =>
      return ((← findItem l fun v => do truthy (← call f [v])).map (·.2)).getD .null
  | _ => return .null

def findIndex (call : Caller) (arr f : Value) : Action Value := do
  match arr with
  | .array l =>
      match ← findItem l fun v => do truthy (← call f [v]) with
      | some (i, _) => return .int i
      | none => return .int (-1)
  | _ => return .int (-1)

/-- Adds an item to the group at the text of what a function gives for it. -/
def groupStep (call : Caller) (f : Value) (_ : Nat) (v : Value) (acc : Entries) :
    Action (ForInStep Entries) := do
  let key := Value.text (← text (← call f [v]))
  match acc.get? key with
  | some group =>
      discard <| push group v
      return .yield acc
  | none => return .yield (acc.put key (← arrayOf [v]))

def groupBy (call : Caller) (arr f : Value) : Action Value := do
  let groups ←
    match arr with
    | .array l => foldItems l [] (groupStep call f)
    | _ => pure []
  newObject groups

def sortBy (call : Caller) (arr f : Value) : Action Value := do
  match arr with
  | .array l =>
      let pairs ← (← items l).toList.mapM fun v => do return (← call f [v], v)
      let s ← heap
      let out ← ofExcept (sortByKeys (s.ordered .lt valueDepth) pairs)
      arrayOf (out.map (·.2))
  | v => return v

/-- A whole number read leniently: zero for a text that is not one. -/
def lenientInt (v : Value) : Routine Int :=
  match v.toInt with
  | .ok n => return n
  | .error f => if f.kind = .value then return 0 else fail f

def take (arr n : Value) : Routine Value := do
  match arr with
  | .array _ => Action.slice arr none (some (← lenientInt n))
  | v => return v

def drop (arr n : Value) : Routine Value := do
  match arr with
  | .array _ => Action.slice arr (some (← lenientInt n)) none
  | v => return v

/-- The items up to the first for which a function gives no true value. -/
def takeWhile (call : Caller) (arr f : Value) : Action Value := do
  match arr with
  | .array l =>
      newArray (← foldItems l #[] fun _ v acc => do
        if ← truthy (← call f [v]) then return .yield (acc.push v) else return .done acc)
  | _ => arrayOf []

/-- The items from the first on for which a function gives no true value. -/
def dropWhile (call : Caller) (arr f : Value) : Action Value := do
  match arr with
  | .array l =>
      match ← findItem l fun v => do return !(← truthy (← call f [v])) with
      | some (i, _) => Action.slice arr (some i) none
      | none => arrayOf []
  | v => return v

def partition (call : Caller) (arr f : Value) : Action Value := do
  let (yes, no) ←
    match arr with
    | .array l => partitionItems l fun v => do truthy (← call f [v])
    | _ => pure (#[], #[])
  let yes ← newArray yes
  let no ← newArray no
  arrayOf [yes, no]

def pluck (arr key : Value) : Routine Value := do
  match arr with
  | .array l =>
      let found ← (← items l).toList.filterMapM fun v => do
        match v with
        | .object k =>
            hashable key
            return (← entries k).get? key
        | _ => return none
      arrayOf found
  | _ => arrayOf []

/-- Counts an item at what a function gives for it. -/
def countStep (call : Caller) (f : Value) (_ : Nat) (v : Value) (acc : Entries) :
    Action (ForInStep Entries) := do
  let key ← call f [v]
  hashable key
  let n := ((acc.get? key).getD (.int 0)).whole?.getD 0
  return .yield (acc.put key (.int (n + 1)))

def countBy (call : Caller) (arr f : Value) : Action Value := do
  let counts ←
    match arr with
    | .array l => foldItems l [] (countStep call f)
    | _ => pure []
  newObject counts

/-- Items of a list in random order, as many as asked for. -/
def drawn : Nat → Array Value → Routine (List Value)
  | 0, _ => return []
  | n + 1, xs => do
      if xs.isEmpty then return []
      else
        let i ← randomBelow xs.size
        let rest ← drawn n (xs.eraseIdxIfInBounds i)
        return xs.getD i .null :: rest

def sample (arr n : Value) : Routine Value := do
  let one ← equal n (.int 1)
  match arr with
  | .array l =>
      let xs ← items l
      if xs.isEmpty then (if one then return .null else arrayOf [])
      else if one then return xs.getD (← randomBelow xs.size) .null
      else
        let k ← extreme .lt n [.int xs.size]
        if ← ordered .lt k (.int 0) then
          valueFault "Sample larger than population or is negative"
        else
          let k ← ofExcept (repetitions k)
          arrayOf (← drawn k xs)
  | _ => if one then return .null else arrayOf []

def shuffle (arr : Value) : Routine Value := do
  match arr with
  | .array l =>
      let xs ← items l
      arrayOf (← drawn xs.size xs)
  | v => return v

/-- What a function gives for the numbers below a bound. -/
def times (call : Caller) (n f : Value) : Action Value := do
  let k ← lenientInt n
  let out ← (numbers 0 k 1).foldlM (fun (acc : Array Value) i => do
    return acc.push (← call f [.int i])) #[]
  newArray out

def Derived.arity : Derived → Nat
  | .composed _ | .piped _ => 1
  | _ => 0

/-- The number of parameters of a function, which functions of the program do not tell. -/
def arityOf (f : Value) : Routine Int := do
  match f with
  | .native (.make _) => noAttribute f "__code__"
  | .native n => return if n.signature.variadic then 0 else n.signature.params.length
  | .derived l => return ((← heap).derivedAt? l).elim 0 fun d => Derived.arity d
  | f => noAttribute f "__code__"

/-- A function that takes its arguments a few at a time. -/
def curry (f arity : Value) : Routine Value := do
  match arity with
  | .null => newDerived (.curried f (.int (← arityOf f)))
  | n => newDerived (.curried f n)

def single (name param : String) (args : List Value) : Routine Value := do
  let vs ← ofExcept ((takes [param] []).bind name args)
  return vs.headD .null

/-- Calls functions one after the other, each with the result of the one before. -/
def chained (call : Caller) (fs : List Value) (x : Value) : Action Value :=
  fs.foldlM (fun acc f => call f [acc]) x

/-- Whether enough time has passed since a function last ran. -/
def mayRun (last : Float) (delay : Value) : Routine (Option Float) := do
  let now := (← get).clock
  if ← ordered .ge (.float (now - last)) delay then return some now else return none

/-- Calls a curried function: it runs once it has enough arguments, and waits for more until
then. -/
def callCurried (call : Caller) (l : Loc) (f arity : Value) (args : List Value) :
    Action Value := do
  if ← ordered .ge (.int args.length) arity then
    match ← ofExcept arity.sliceIndex with
    | some n => call f (sliceList args 0 n)
    | none => call f args
  else newDerived (.applied l args)

/-- Calls a function that waits between its calls. -/
def callWaiting (call : Caller) (l : Loc) (f : Value) (last : Float) (delay : Value)
    (args : List Value) : Action Value := do
  match ← mayRun last delay with
  | some now =>
      modifyDerived l (·.lastRun now)
      call f args
  | none => return .null

def callDerived (call : Caller) (l : Loc) (d : Derived) (args : List Value) : Action Value := do
  match d with
  | .memoized f cache =>
      let key ← text (.tuple args)
      match cache.lookup key with
      | some v => return v
      | none =>
          let v ← call f args
          modifyDerived l (·.keeping key v)
          return v
  | .curried f arity => callCurried call l f arity args
  | .applied c first => call (.derived c) (first ++ args)
  | .composed fs => chained call fs.reverse (← single d.qualifiedName "x" args)
  | .piped fs => chained call fs (← single d.qualifiedName "x" args)
  | .constant v =>
      discard <| ofExcept ((takes [] []).bind d.qualifiedName args)
      return v
  | .negated f => return .bool (!(← truthy (← call f args)))
  | .once f called result =>
      if called then return result
      else
        modifyDerived l (·.finished .null)
        let v ← call f args
        modifyDerived l (·.finished v)
        return v
  | .debounced f delay last => callWaiting call l f last delay args
  | .throttled f delay last => callWaiting call l f last delay args
  | .clickHandler widget =>
      let callback := ((← get).gui.widgets.lookup widget).elim .null (·.callback)
      if ← truthy callback then discard <| call callback []
      return .null
  | .method .. | .staticMethod .. => return .null

end ScriptLang.Library
