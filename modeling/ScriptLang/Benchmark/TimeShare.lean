import ScriptLang.Benchmark.Document

/-!
# Shares of time

How much of the time of each benchmark is spent in the code that it measures, the smallest share
first. A negative share stands for a benchmark that failed.
-/

namespace ScriptLang.Benchmark

open ScriptLang.Number ScriptLang.Text

/-- The shares of time in percent, and what else takes the time of a benchmark. -/
structure TimeShares where
  shares : List (String × Float) := []
  elsewhere : List (String × Json) := []

namespace TimeShares

/-- Shares below this are too small. -/
def least : Float := 45

def ofJson (v : Json) : Except Fault TimeShares := do
  let shares ← (← v.get "repo_time_pct" (.fields [])).entries
  let shares ← shares.mapM fun f => do return (f.1, ← f.2.toFloat)
  let elsewhere ← (← v.get "hot_ext" (.fields [])).entries
  return { shares, elsewhere }

def valid (t : TimeShares) : List Float :=
  (t.shares.map (·.2)).filter (0 ≤ ·)

def countBelow (t : TimeShares) : Nat :=
  (t.valid.filter (· < least)).length

/-- How many shares are too small; nothing when there is no share at all. -/
def below (t : TimeShares) : Option Nat :=
  if t.valid.isEmpty then none else some t.countBelow

/-- What else takes the time of a benchmark, as text. -/
def hotSpots (v : Json) : Except Fault String := do
  let parts ← v.listItems.mapM fun part =>
    match part with
    | .list [share, name] => do return name.shown ++ " " ++ (← share.fixedText 0) ++ "%"
    | v => .error (.other .type s!"cannot unpack non-iterable {v.typeName} object")
  return " (hot: " ++ String.intercalate " " parts ++ ")"

def line (t : TimeShares) (name : String) (share : Float) : Except Fault String := do
  let low := 0 ≤ share && share < least
  let shownShare := padLeft 5 ' ' (fixed 1 (if share < 0 then 0 else share)) ++ "%"
  let head := (if low then "  * " else "    ") ++ padRight 32 ' ' name ++ " " ++ shownShare
  let elsewhere := (t.elsewhere.lookup name).getD .null
  if share < 0 then return head ++ "  <error>"
  else if low && elsewhere.truthy then return head ++ (← hotSpots elsewhere)
  else return head

def lines (t : TimeShares) : Except Fault (List String) := do
  if t.shares.isEmpty then return []
  let sorted := t.shares.mergeSort fun a b => decide (a.2 ≤ b.2)
  let body ← sorted.mapM fun s => t.line s.1 s.2
  return "" :: "repo_time (target 50%; * = below 45%):" :: body

end TimeShares

end ScriptLang.Benchmark
