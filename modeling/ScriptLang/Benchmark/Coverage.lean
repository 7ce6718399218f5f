import ScriptLang.Benchmark.Document
import ScriptLang.Files.PathText

/-!
# Coverage

The table of files with what of them has run, the least covered first, and the totals.
-/

namespace ScriptLang.Benchmark

open ScriptLang.Number ScriptLang.Text

structure CoverageRow where
  file : String
  statements : Json
  missed : Json
  percent : Json
  missing : List Json

structure CoverageTotals where
  percent : Json
  covered : Json
  statements : Json

structure Coverage where
  rows : List CoverageRow
  totals : CoverageTotals
  /-- benchmarks that failed, with what went wrong -/
  failures : List (String × Json)

/-- Names longer than this are cut. -/
def nameLimit : Nat := 60

/-- More missing lines than this are not shown. -/
def shownLines : Nat := 12

/-- More files than this are not shown. -/
def shownFiles : Nat := 120

/-- More failures than this are not shown. -/
def shownFailures : Nat := 8

/-- The names that lead from one directory to a path, up and then down. -/
def relativeNames : List String → List String → List String
  | d :: directory, n :: names =>
      if d == n then relativeNames directory names
      else List.replicate (directory.length + 1) ".." ++ n :: names
  | directory, names => List.replicate directory.length ".." ++ names

/-- A path as seen from a directory; a path that is not absolute starts there. -/
def relativePath (directory : Path) (path : String) : String :=
  let names := FileSystem.names (PathText.absolute directory path)
  match relativeNames directory names with
  | [] => "."
  | down => String.intercalate "/" down

def CoverageRow.ofJson (directory : Path) (file : String) (v : Json) :
    Except Fault CoverageRow := do
  let summary ← v.get "summary" (.fields [])
  let missing ← v.get "missing_lines" (.list [])
  return {
    file := String.ofList ((relativePath directory file).toList.take nameLimit)
    statements := ← summary.get "num_statements" (.whole 0)
    missed := ← summary.get "missing_lines" (.whole 0)
    percent := ← summary.get "percent_covered" (.real 0)
    missing := missing.listItems }

/-- The report in a document; files are named as seen from a directory. -/
def Coverage.ofJson (directory : Path) (v : Json) : Except Fault Coverage := do
  let info ← v.get "meta" (.fields [])
  let failures ← info.get "_pti_bench_errors" (.fields [])
  let files ← (← v.get "files" (.fields [])).entries
  let rows ← files.mapM fun f => CoverageRow.ofJson directory f.1 f.2
  let totals ← v.get "totals" (.fields [])
  return {
    rows
    totals := {
      percent := ← totals.get "percent_covered" (.real 0)
      covered := ← totals.get "covered_lines" (.whole 0)
      statements := ← totals.get "num_statements" (.whole 0) }
    failures := ← failures.entries }

/-- Lines of a table: a name, then numbers to the right of their columns. -/
def tableLine (width : Nat) (name statements missed percent : String) : String :=
  padRight width ' ' name ++ "  " ++ padLeft 5 ' ' statements ++ "  " ++
    padLeft 4 ' ' missed ++ "  " ++ padLeft 5 ' ' percent

def CoverageRow.line (width : Nat) (r : CoverageRow) : Except Fault String := do
  let lines := String.intercalate "," ((r.missing.take shownLines).map Json.shown)
  let more := if shownLines < r.missing.length then "…" else ""
  return tableLine width r.file r.statements.shown r.missed.shown ((← r.percent.fixedText 0) ++ "%")
    ++ "  " ++ lines ++ more

/-- Whether a row stands before another: the less covered file, or the larger of two alike. -/
def CoverageRow.before (a b : CoverageRow) : Bool :=
  let p := a.percent.number?.getD 0
  let q := b.percent.number?.getD 0
  p < q || p == q && decide (b.statements.wholeOrZero ≤ a.statements.wholeOrZero)

/-- The lines of the table of files, and of the totals below it. -/
def Coverage.table (c : Coverage) : Except Fault (List String) := do
  let rows := (c.rows.mergeSort CoverageRow.before).take shownFiles
  let width := if rows.isEmpty then 4 else (rows.map (·.file.length)).foldl max 0
  let rule := String.ofList (List.replicate (width + 42) '-')
  let missed := c.totals.statements.wholeOrZero - c.totals.covered.wholeOrZero
  let lines ← rows.mapM (·.line width)
  let total := tableLine width "TOTAL" c.totals.statements.shown (wholeText missed)
    ((← c.totals.percent.fixedText 0) ++ "%")
  return (tableLine width "Name" "Stmts" "Miss" "Cover" ++ "  Missing") :: rule :: lines
    ++ [rule, total]

def Coverage.failureLines (c : Coverage) : List String :=
  if c.failures.isEmpty then []
  else
    "" :: s!"{c.failures.length} bench error(s):"
      :: (c.failures.take shownFailures).map fun f => "  " ++ f.1 ++ ": " ++ f.2.shown

end ScriptLang.Benchmark
