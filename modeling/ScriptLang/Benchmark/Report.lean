import ScriptLang.Benchmark.Coverage
import ScriptLang.Benchmark.Plateau
import ScriptLang.Benchmark.SelfCheck
import ScriptLang.Benchmark.TimeShare

/-!
# The benchmark report

One round of measuring: tools are run for coverage, shares of time and self-checks, what they found
is printed and added to a history, and the rounds end when they bring no improvement any more.
-/

namespace ScriptLang.Benchmark

open ScriptLang.Number ScriptLang.Text

structure Tool where
  output : String := ""
  errors : String := ""
  status : Int := 0
  /-- how long it takes -/
  seconds : Float := 0
  /-- it does not end in time -/
  hangs : Bool := false
  /-- the coverage report that it writes -/
  report : Option String := none

/-- What a round starts with. Tools that are not there are not run. -/
structure Setup where
  coverage : Tool
  timeShares : Option Tool := none
  selfChecks : Option Tool := none
  versions : Tool := {}
  /-- the source of the benchmarks -/
  benchmarks : Option String := none
  history : Option String := none
  /-- the place of the history is taken by a directory -/
  historyBlocked : Bool := false
  clock : Float := 1700000000.0

structure State where
  clock : Float
  out : String := ""
  errors : String := ""
  history : Option String := none
  shares : TimeShares := {}
  checks : List SelfCheck := []
  /-- which round this is -/
  round : Nat := 1
  /-- the counts of shares that were too small in the rounds before -/
  counts : List Json := []

/-- Why a round ends early. -/
inductive Stop where
  | exit (status : Int)
  | fault (f : Fault)

abbrev Round := EStateM Stop State

/-- The directory with the code that is measured. -/
def directory : Path := ["repo"]

def printLine (s : String) : Round Unit :=
  modify fun st => { st with out := st.out ++ s ++ "\n" }

def printLines (lines : List String) : Round Unit :=
  lines.forM printLine

def ofExcept {α : Type} : Except Fault α → Round α
  | .ok a => return a
  | .error f => throw (.fault f)

def runTool (command : List String) (limit : Nat) (t : Tool) : Round Unit := do
  modify fun st => { st with clock := st.clock + t.seconds }
  if t.hangs then
    throw (.fault (.other .timeout
      ("Command '[" ++ String.intercalate ", " (command.map quoted)
        ++ s!"]' timed out after {limit} seconds")))

def scriptCommand (script : String) : List String :=
  ["python3", directory.text ++ "/" ++ script]

/-- Runs a step; a fault is reported by the name of the tool. -/
def guarded (tool : String) (act : Round Unit) : Round Unit :=
  tryCatch act fun
    | .fault f =>
        modify fun st => { st with
          errors :=
            st.errors ++ s!"[{tool} runner: " ++ f.kind.title ++ ": " ++ f.message ++ "]\n" }
    | s => throw s

/-- The document in the last line of an output; none when that is blank. -/
def lastDocument (output : String) : Except Fault (Option Json) :=
  let line := (lines output).getLast?.getD ""
  if (trim line).isEmpty then .ok none else some <$> Json.parse line

/-- The coverage that is measured, and how long that takes. -/
def measureCoverage (t : Tool) : Round (Coverage × Float) := do
  let start := (← get).clock
  runTool (scriptCommand "_pti_cov_runner.py") 600 t
  let seconds := (← get).clock - start
  match t.status, t.report with
  | 0, some report => return (← ofExcept (Json.parse report >>= Coverage.ofJson directory), seconds)
  | status, _ =>
      printLine s!"coverage measurement failed (exit {status})"
      printLine t.output
      throw (.exit (if status = 0 then 1 else status))

def measureShares (t : Tool) : Round Unit := do
  runTool (scriptCommand "_pti_repotime.py") 120 t
  match ← ofExcept (lastDocument t.output) with
  | none => pure ()
  | some v =>
      let shares ← ofExcept (TimeShares.ofJson v)
      modify fun st => { st with shares }

/-- Checks the benchmarks one by one; what was found before a fault stays. What is no object is no
benchmark. -/
def checkBenchmarks (t : Tool) : Round Unit := do
  runTool (scriptCommand "_pti_semcheck.py") 300 t
  match ← ofExcept (lastDocument t.output) with
  | none => pure ()
  | some v =>
      let fields ← ofExcept (v.get "semcheck" (.fields []) >>= Json.entries)
      (fields.filter fun f => f.2 matches .fields _).forM fun f => do
        let check ← ofExcept (SelfCheck.ofJson f.1 f.2)
        modify fun st => { st with checks := st.checks ++ [check] }

/-- Whether a file belongs to the measuring itself. -/
def isOwnFile (path : String) : Bool :=
  path == "microbench.py" || path.startsWith "_pti" || path.startsWith ".pti"

/-- The files that are changed, as the output of the version tool lists them. -/
def changedFiles (output : String) : List String :=
  ((lines output).filter fun line => !(trim line).isEmpty).map
      (fun line => String.ofList (line.toList.drop 3))
    |>.filter (!isOwnFile ·)

/-- Looks for changed files; where there are any, no benchmark is good. -/
def checkVersions (t : Tool) : Round (List String) := do
  if (← get).checks.isEmpty then return []
  let changed ← tryCatch (do runTool ["git"] 30 t; return changedFiles t.output) fun _ => return []
  unless changed.isEmpty do
    modify fun st => { st with checks := st.checks.map ({ · with verdict := .modified }) }
  return changed

def countBenchmarks (source : String) : Nat :=
  ((source.splitOn "\n").filter fun line =>
    match afterPrefix "def bench_".toList line.toList with
    | some (c :: _) => isAlphanumeric c || c == '_'
    | _ => false).length

/-- The lines of a history that are not blank. -/
def historyLines (text : String) : List String :=
  ((String.ofList (unifyLineEnds text.toList)).splitOn "\n").filter fun line => !(trim line).isEmpty

/-- Reads a round, and keeps its count if that is a whole number. -/
def readRound (line : String) : Round Json := do
  let v ← ofExcept (Json.parse line)
  match ← ofExcept (v.get "n_below_repo_time" .null) with
  | .whole n => modify fun st => { st with counts := st.counts ++ [.whole n] }
  | .bool b => modify fun st => { st with counts := st.counts ++ [.bool b] }
  | _ => pure ()
  return v

/-- The time since the last round; zero when it is not known. -/
def timeSince (clock : Float) (rounds : List Json) : Except Fault Float := do
  match rounds.getLast? with
  | none => return 0
  | some last =>
      let before ← last.get "ts" .null
      if !before.truthy then return 0
      match before.number? with
      | some x => return roundPlaces (clock - x) 2
      | none => .error (.badOperands "-" "float" before.typeName)

/-- Adds a round to the history. A history that cannot be read or written stays as it is; the counts
that were read before stay too. -/
def keepHistory (s : Setup) (c : Coverage) (seconds : Float) : Round Unit :=
  tryCatch (do
    if s.historyBlocked then throw (.fault (.other .isDirectory "Is a directory"))
    let st ← get
    let lines := historyLines (st.history.getD "")
    set { st with round := lines.length + 1 }
    let rounds ← lines.mapM readRound
    let since ← ofExcept (timeSince st.clock rounds)
    let st ← get
    let entry := Json.fields
      [("round", .whole st.round), ("ts", .real st.clock), ("wall_since_prev_s", .real since),
       ("coverage_pct", c.totals.percent), ("covered_lines", c.totals.covered),
       ("num_statements", c.totals.statements),
       ("n_bench_fns", .whole ((s.benchmarks.map countBenchmarks).getD 0)),
       ("n_bench_errors", .whole c.failures.length),
       ("cov_measure_s", .real (roundPlaces seconds 3)),
       ("repo_time_pct", .fields (st.shares.shares.map fun f => (f.1, .real f.2))),
       ("n_below_repo_time", (st.shares.below.map fun n => Json.whole n).getD .null),
       ("semcheck", .fields (st.checks.map fun c => (c.name, .text c.verdict.name))),
       ("n_not_self_checking", .whole (st.checks.filter (!·.verdict.isGood)).length)]
    set { st with history := some (st.history.getD "" ++ Json.render .line entry ++ "\n") })
    fun _ => pure ()

/-- The line that sums up a round. -/
def summary (s : Setup) (c : Coverage) (seconds : Float) (st : State) : Except Fault String := do
  let shares :=
    if st.shares.shares.isEmpty then ""
    else s!", {st.shares.countBelow}/{st.shares.valid.length} below repo_time 45%"
  let bad := (st.checks.filter (!·.verdict.isGood)).length
  let checks := if st.checks.isEmpty then "" else s!", {bad}/{st.checks.length} not self-checking"
  return s!"[round {st.round}: {(s.benchmarks.map countBenchmarks).getD 0} benches, "
    ++ (← c.totals.percent.fixedText 1) ++ "% covered" ++ shares ++ checks ++ ", measured in "
    ++ fixed 1 seconds ++ "s]"

/-- The coverage that has to be reached before rounds can end. -/
def leastCoverage : Float := 60

def noImprovement (p : Plateau Json) : String :=
  s!"no improvement in {p.since} rounds; best " ++ p.best.shown ++ " below"

/-- Why no further round is needed, if so. -/
def conclusion (counts : List Json) (below : Nat) : Option String :=
  if below = 0 then some "0 below"
  else
    let p := Plateau.ofHistory Json.wholeOrZero counts (.whole below)
    if p.reached then some (noImprovement p) else none

def stopLine (why : String) : String :=
  ">>> STOP: repo_time converged (" ++ why ++ "). Finalize microbench.py now. <<<"

/-- More changed files than this are not shown. -/
def shownChanges : Nat := 10

/-- The lines that name changed files. -/
def changeLines (changed : List String) : List String :=
  if changed.isEmpty then []
  else
    "" :: (s!"** repo modified ({changed.length} file(s)) — revert these; "
        ++ "only microbench.py is yours to edit:")
      :: (changed.take shownChanges).map ("   " ++ ·)

/-- Says that the rounds end, if enough is covered and no further one is needed. -/
def conclude (c : Coverage) (st : State) : Round Unit := do
  if let some below := st.shares.below then
    if leastCoverage ≤ (c.totals.percent.number?.getD 0) then
      if let some why := conclusion st.counts below then
        printLines ["", stopLine why]

def round (s : Setup) : Round Unit := do
  let (c, seconds) ← measureCoverage s.coverage
  if let some t := s.timeShares then guarded "repotime" (measureShares t)
  if let some t := s.selfChecks then guarded "semcheck" (checkBenchmarks t)
  let changed ← checkVersions s.versions
  keepHistory s c seconds
  let st ← get
  printLines (← ofExcept c.table)
  printLines c.failureLines
  printLines (← ofExcept st.shares.lines)
  printLines (changeLines changed)
  printLines (selfCheckLines st.checks)
  printLines ["", ← ofExcept (summary s c seconds st)]
  conclude c st

/-- Runs a round from its setup: how it ends, and the state after it. -/
def runRound (s : Setup) : Option Stop × State :=
  match (round s).run { clock := s.clock, history := s.history } with
  | .ok _ st => (none, st)
  | .error stop st => (some stop, st)

end ScriptLang.Benchmark
