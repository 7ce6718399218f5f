import ScriptLang.Calendar
import ScriptLang.Library.Core

/-!
# Console, prompts and clock

The packages that print, ask the user, and tell the time.
-/

namespace ScriptLang.Package

open ScriptLang.Action ScriptLang.Library

/-- What the functions that print do with their arguments. -/
def runOutput (f : OutputFn) (args : List Value) : Routine Value := do
  match f with
  | .console => printValues args
  | .log => printValues (.text "[LOG]" :: args)
  | .error => printValues (.text "[ERROR]" :: args)
  | .warn => printValues (.text "[WARN]" :: args)
  | .input => return ← ask (args.getD 0 .null)
  return .null

/-- Runs an action that reads what the user types; when the input ends or the user interrupts, the
program ends. -/
def orCancel {α : Type} (act : Routine α) : Routine α :=
  let cancel : Routine α := do
    printLine "\nInput cancelled"
    throw (.exit (.int 0))
  tryCatch act fun
    | .interrupt => cancel
    | .fault f => if f.kind = .endOfInput then cancel else throw (.fault f)
    | s => throw s

/-- The number a line stands for: a float when it has a point. -/
def lineNumber (line : String) : Except Fault Num :=
  if line.toList.contains '.' then Num.real <$> (Value.text line).toFloat
  else Num.whole <$> wholeOfText line

/-- Asks again and again until the answer to one question is accepted. -/
def askUntil (round : Routine (Option Value)) : Nat → Routine Value
  | 0 => throw .interrupt
  | n + 1 => do
      match ← round with
      | some v => return v
      | none => askUntil round n

/-- Asks until the answer is a number. -/
def askNumber (prompt : Value) : Routine Value :=
  orCancel <| askUntil (do
    print (← text prompt)
    match lineNumber (← readLine) with
    | .ok n => return some (← number n)
    | .error _ =>
        printLine "Please enter a valid number"
        return none) loopLimit

/-- The answers that mean yes. -/
def isYes (answer : String) : Bool := answer == "y" || answer == "yes"

/-- The answers that mean no. -/
def isNo (answer : String) : Bool := answer == "n" || answer == "no"

/-- Asks a question for an answer in lower case without blanks around it. -/
def askLower (question : Value) : Routine String := do
  print (← text question)
  return Text.trim (Text.lower (← readLine))

/-- Asks until the answer is yes or no, which are given as one and zero. -/
def askYesNo (prompt : Value) : Routine Value :=
  orCancel <| askUntil (do
    let answer ← askLower (← add.plus prompt (.text " (y/n): "))
    if isYes answer then return some (.int 1)
    else if isNo answer then return some (.int 0)
    else
      printLine "Please enter 'y' or 'n'"
      return none) loopLimit

/-- Prints options with their numbers, from one on. -/
def printOptions (options : Value) : Routine Unit := do
  let xs ← iterate options
  let _ ← xs.foldlM (fun (i : Nat) x => do
    printLine (s!"  {i}. " ++ (← text x))
    return i + 1) 1

/-- Asks for the number of an option and gives its index. Every question takes a line of the input,
so there are at most as many as characters, and one that finds the input at its end. -/
def askOption (prompt : String) (options : Value) : Nat → Routine Int
  | 0 => throw .interrupt
  | n + 1 => do
      print prompt
      match wholeOfText (← readLine) with
      | .error _ =>
          printLine "Please enter a valid number"
          askOption prompt options n
      | .ok k =>
          let count ← length options
          if 1 ≤ k && k ≤ count then return k - 1
          else
            printLine s!"Please enter a number between 1 and {count}"
            askOption prompt options n

/-- Shows options and gives the one that the user chooses by its number. -/
def askChoice (prompt options : Value) : Routine Value := do
  printLine (← text prompt)
  printOptions options
  orCancel do
    let i ← askOption "Enter choice number: " options ((← get).input.length + 1)
    getItem options (.int i)

/-- What the functions that ask do with their arguments. -/
def runPrompt (f : PromptFn) (args : List Value) : Routine Value :=
  let a := args.getD 0 .null
  let b := args.getD 1 .null
  match f with
  | .console | .text | .password => orCancel (ask a)
  | .number => askNumber a
  | .yesno => askYesNo a
  | .choice => askChoice a b

/-- The date and the time as a text. -/
def dateText : Routine String := do
  return (Moment.ofClock (← get).clock).text

/-- What the functions about time do with their arguments. -/
def runClock (f : ClockFn) (args : List Value) : Routine Value := do
  match f with
  | .now => return .float (← get).clock
  | .sleep => sleep (args.getD 0 .null)
  | .date => return .text (← dateText)
  | .timestamp => return .int (← ofExcept (wholeOfFloat (← get).clock))

end ScriptLang.Package
