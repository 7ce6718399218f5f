import ScriptLang.Value.Access

/-!
# Calls

How the arguments of a call become the parameters of a function, with the wording of a call that
does not fit, and how functions go over arrays that change while they do.
-/

namespace ScriptLang

abbrev Caller := Value → List Value → Action Value

/-- Names in quotes, with commas and a last `and`. -/
def nameList : List String → String
  | [] => ""
  | [a] => "'" ++ a ++ "'"
  | [a, b] => "'" ++ a ++ "' and '" ++ b ++ "'"
  | [a, b, c] => "'" ++ a ++ "', '" ++ b ++ "', and '" ++ c ++ "'"
  | a :: rest => "'" ++ a ++ "', " ++ nameList rest

def missingMessage (name : String) (missing : List String) : String :=
  name ++ s!"() missing {missing.length} required positional argument"
    ++ (if missing.length = 1 then "" else "s") ++ ": " ++ nameList missing

def surplusMessage (name : String) (least most given : Nat) : String :=
  name ++ "() takes "
    ++ (if least = most then s!"{most} positional argument" ++ (if most = 1 then "" else "s")
        else s!"from {least} to {most} positional arguments")
    ++ s!" but {given} " ++ (if given = 1 then "was" else "were") ++ " given"

/-- The arguments that a call gives to the parameters, defaults filled in. -/
def Signature.bind (s : Signature) (name : String) (args : List Value) :
    Except Fault (List Value) :=
  if s.variadic then .ok args
  else
    let most := s.params.length
    let rest := s.params.drop args.length
    let missing := (rest.filter (·.default.isNone)).map (·.name)
    if most < args.length then
      let least := (s.params.filter (·.default.isNone)).length
      .error (.arguments (surplusMessage name least most args.length))
    else if missing.isEmpty then
      .ok (args ++ rest.map fun p => Value.ofLiteral (p.default.getD .null))
    else .error (.arguments (missingMessage name missing))

/-- A loop that has run this many rounds is interrupted. -/
def loopLimit : Nat := 1000000000000000

namespace Action

/-- Repeats an action as long as it says so, for at most the given number of rounds. -/
def repeatWhile (body : Action Bool) : Nat → Action Unit
  | 0 => throw .interrupt
  | n + 1 => do if ← body then repeatWhile body n else pure ()

/-- Goes over the items of an array as it is at each step, from place `i` on, for at most the given
number of rounds. -/
def foldItemsFrom {α : Type} (l : Loc) (step : Nat → Value → α → Action (ForInStep α)) :
    Nat → Nat → α → Action α
  | 0, _, _ => throw .interrupt
  | n + 1, i, acc => do
      match (← items l)[i]? with
      | none => return acc
      | some v =>
          match ← step i v acc with
          | .done acc => return acc
          | .yield acc => foldItemsFrom l step n (i + 1) acc

/-- Goes over the items of an array as it is at each step. The loop is interrupted when it has run
`loopLimit` rounds more than there were items at first. -/
def foldItems {α : Type} (l : Loc) (init : α) (step : Nat → Value → α → Action (ForInStep α)) :
    Action α := do
  foldItemsFrom l step ((← items l).size + loopLimit) 0 init

/-- The items of an array for which a test holds, and those for which it does not. -/
def partitionItems (l : Loc) (test : Value → Action Bool) : Action (Array Value × Array Value) :=
  foldItems l (#[], #[]) fun _ v acc => do
    if ← test v then return .yield (acc.1.push v, acc.2) else return .yield (acc.1, acc.2.push v)

def findItem (l : Loc) (test : Value → Action Bool) : Action (Option (Nat × Value)) :=
  foldItems l none fun i v _ => do
    if ← test v then return .done (some (i, v)) else return .yield none

end Action

end ScriptLang
