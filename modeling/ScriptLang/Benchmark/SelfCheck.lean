import ScriptLang.Benchmark.Document

/-!
# Self-checks of benchmarks

A benchmark is good when its result comes from the code that it measures: when it returns
something, the same each time, and something else for other parameters.
-/

namespace ScriptLang.Benchmark

open ScriptLang.Number ScriptLang.Text

inductive Verdict where
  | ok
  | okUnparam
  | error
  | returnsNone
  | unstable
  | returnsInput
  | lowTime
  | tooFast
  | paramInvariant
  | modified
deriving DecidableEq, Repr

def Verdict.name : Verdict → String
  | .ok => "ok"
  | .okUnparam => "ok-unparam"
  | .error => "error"
  | .returnsNone => "returns-none"
  | .unstable => "unstable"
  | .returnsInput => "returns-input"
  | .lowTime => "low-repo-time"
  | .tooFast => "too-fast"
  | .paramInvariant => "param-invariant"
  | .modified => "repo-modified"

def Verdict.isGood : Verdict → Bool
  | .ok | .okUnparam => true
  | _ => false

structure SelfCheck where
  name : String
  verdict : Verdict
  returnType : String
  /-- the smallest share of time in the measured code -/
  share : Float
  /-- the time of a run in milliseconds -/
  time : Float

def median (xs : List Float) : Float :=
  let sorted := xs.mergeSort fun a b => decide (a ≤ b)
  let half := sorted.length / 2
  if sorted.length % 2 = 1 then sorted.getD half 0
  else (sorted.getD (half - 1) 0 + sorted.getD half 0) / 2

def smallest : List Float → Float
  | [] => 0
  | x :: xs => xs.foldl (fun a b => if b < a then b else a) x

/-- Whether a kind of result stands for a failure. -/
def isFailure (kind : Json) : Except Fault Bool :=
  if !kind.truthy then .ok true
  else
    match kind with
    | .text s => .ok (s.startsWith "<")
    | v => v.lacks "startswith"

def verdictOn (v kind : Json) (shares times : List Float) : Except Fault Verdict := do
  if ← isFailure kind then return .error
  if kind.same (.text "NoneType") then return .returnsNone
  let results := (← v.get "fp_stable" (.list [])).listItems
  if (← Json.countDistinct results) ≠ 1 then return .unstable
  let inputs := (← v.get "param_fps" (.list [])).listItems
  if results.head?.any fun r => inputs.any (·.same r) then return .returnsInput
  if !shares.isEmpty && smallest shares < 0.5 then return .lowTime
  if !times.isEmpty && median times < 1 then return .tooFast
  let byParameter ← (← v.get "fp_by_param" (.fields [])).values
  if byParameter.length < 2 then return .okUnparam
  if (← Json.countDistinct byParameter) = 1 then return .paramInvariant
  return .ok

def SelfCheck.ofJson (name : String) (v : Json) : Except Fault SelfCheck := do
  let kind ← v.get "ret_type" .null
  let times ← (← (← v.get "repo_tt_ms" (.fields [])).values).mapM Json.toFloat
  let shares ← (← (← v.get "repo_frac" (.fields [])).values).mapM Json.toFloat
  let verdict ← verdictOn v kind shares times
  return {
    name, verdict, share := smallest shares
    returnType := if kind.truthy then kind.shown else "?"
    time := if times.isEmpty then 0 else roundPlaces (median times) 2 }

/-- What the words for verdicts mean. -/
def verdictHelp : List String :=
  ["  returns-none: run() has no return — collect and return the call results",
   "  unstable: seed RNG in setup; avoid time/uuid/id in the return",
   "  returns-input: return repo output, not the parameter value",
   "  low-repo-time: <50% of run() time is in repo code — move glue to setup",
   "  param-invariant: return something derived from run()'s work, not setup",
   "  repo-modified: revert edits to repo files (git checkout -- <path>)"]

def SelfCheck.line (c : SelfCheck) : String :=
  (if c.verdict.isGood then "    " else "  * ") ++ padRight 32 ' ' c.name ++ " "
    ++ padRight 16 ' ' c.verdict.name ++ " (" ++ c.returnType ++ ", repo "
    ++ fixed 0 (c.share * 100) ++ "%) " ++ fixed 1 c.time ++ "ms"

def selfCheckLines (checks : List SelfCheck) : List String :=
  if checks.isEmpty then []
  else
    let (good, bad) := checks.partition (·.verdict.isGood)
    "" :: "self-check (* = fix needed):" :: verdictHelp ++ (bad ++ good).map SelfCheck.line

end ScriptLang.Benchmark
