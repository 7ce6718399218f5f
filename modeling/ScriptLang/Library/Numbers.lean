import ScriptLang.Library.Arrays

/-!
# Functions on numbers

Rounding goes to the even neighbour of a half of the exact value.
-/

namespace ScriptLang.Library

open ScriptLang.Action ScriptLang.Number

def clamp (v low high : Value) : Routine Value := do
  let upper ← extreme .lt high [v]
  extreme .gt low [upper]

def lerp (start stop t : Value) : Routine Value := do
  add.plus start (← mul (← sub stop start) t)

def random (low high : Value) : Routine Value := do
  let r ← randomUnit
  add.plus low (← mul (← sub high low) (.float r))

/-- A bound of a range of random whole numbers. -/
def randomBound (what : String) (v : Value) : Routine Int := do
  match v.whole? with
  | some n => return n
  | none =>
      let n ← toInt v
      if ← equal (.int n) v then return n
      else valueFault ("non-integer " ++ what ++ " for randrange()")

def randomInt (low high : Value) : Routine Value := do
  let stop ← add.plus high (.int 1)
  let a ← randomBound "arg 1" low
  let b ← randomBound "stop" stop
  if a < b then return .int (a + (← randomBelow (b - a).toNat))
  else valueFault s!"empty range for randrange() ({a}, {b}, {b - a})"

/-- A number rounded to decimal places; to a whole number when the places are null. -/
def round (v places : Value) : Routine Value := do
  match v.num? with
  | some (.real x) =>
      match places with
      | .null =>
          match nearest x with
          | some n => return .int n
          | none => return .int (← ofExcept (wholeOfFloat x))
      | places =>
          let n ← ofExcept places.integer
          let y := roundPlaces x n
          match Binary.ofFloat x, Binary.ofFloat y with
          | .finite .., .infinite _ =>
              fail (.other .overflow "rounded value too large to represent")
          | _, _ => real y
  | some (.whole k) =>
      match places with
      | .null => return .int k
      | places =>
          match ← ofExcept places.integer with
          | .ofNat _ => return .int k
          | .negSucc n => return .int (roundTens k (n + 1))
  | none => typeFault ("type " ++ v.typeName ++ " doesn't define __round__ method")

def abs (v : Value) : Routine Value :=
  match v.num? with
  | some (.whole n) => return .int n.natAbs
  | some (.real x) => real x.abs
  | none => fail (.badOperand "abs()" v.typeName)

def sign (v : Value) : Routine Value := do
  if ← ordered .gt v (.int 0) then return .int 1
  else if ← ordered .lt v (.int 0) then return .int (-1)
  else return .int 0

/-- The number of places in a format: its digits, which must be all there is before the final
letter. -/
def formatPlaces (v : Value) (spec : String) : Routine Nat := do
  let cs := spec.toList
  let ds := cs.takeWhile Char.isDigit
  if ds.isEmpty then valueFault "Format specifier missing precision"
  else if ds.length < cs.length then
    valueFault ("Invalid format specifier '." ++ spec ++ "f' for object of type '" ++
      v.typeName ++ "'")
  else return ds.foldl (fun n c => 10 * n + (c.toNat - 48)) 0

def formatNumber (v places : Value) : Routine Value := do
  let spec ← text places
  match v with
  | .text _ =>
      discard <| formatPlaces v spec
      valueFault "Unknown format code 'f' for object of type 'str'"
  | v =>
      match v.num? with
      | none => typeFault ("unsupported format string passed to " ++ v.typeName ++ ".__format__")
      | some n =>
          let k ← formatPlaces v spec
          return .text (fixed k (← ofExcept n.toFloat))

/-- Waits: the clock moves on by the seconds, after whatever happens to files meanwhile. When
nothing more is planned the user interrupts. -/
def sleep (seconds : Value) : Routine Value := do
  let x ← sleepLength seconds
  let w ← get
  match w.sleeps with
  | some [] => throw .interrupt
  | some (none :: rest) => set { w with sleeps := some rest }
  | some (some event :: rest) => set { w with sleeps := some rest, files := event.apply w }
  | none => pure ()
  modify fun w => { w with clock := w.clock + x }
  return .null
where
  sleepLength (v : Value) : Routine Float :=
    match v.num? with
    | some (.real x) =>
        if x.isNaN then valueFault "Invalid value NaN (not a number)"
        else if x < 0 then valueFault "sleep length must be non-negative"
        else if x > 9.2e9 then
          fail (.other .overflow "timestamp too large to convert to C _PyTime_t")
        else return x
    | some (.whole n) =>
        if n < 0 then valueFault "sleep length must be non-negative"
        else if n > 9223372036 then
          fail (.other .overflow "timestamp too large to convert to C _PyTime_t")
        else return ofInt n
    | none => typeFault ("'" ++ v.typeName ++ "' object cannot be interpreted as an integer")

end ScriptLang.Library
