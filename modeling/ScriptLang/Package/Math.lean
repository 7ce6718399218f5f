import ScriptLang.Library.Numbers

/-!
# Mathematics

Functions on floats, which refuse arguments outside their domain.
-/

namespace ScriptLang.Package

open ScriptLang.Action ScriptLang.Library ScriptLang.Number

def domainFault {α : Type} : Routine α :=
  valueFault "math domain error"

/-- A function that has a value for finite arguments only. -/
def onFinite (f : Float → Float) (x : Float) : Routine Value :=
  if x.isInf then domainFault else real (f x)

/-- A power. Negative bases need whole exponents, zero a positive one, and the result must fit. -/
def power (x y : Float) : Routine Value :=
  let r := x.pow y
  if x.isFinite && y.isFinite then
    if r.isNaN then domainFault
    else if r.isInf then
      if x == 0 then domainFault else fail (.other .overflow "math range error")
    else real r
  else real r

/-- The whole number next to a value in one direction. -/
def wholeNear (f : Float → Option Int) (v : Value) : Routine Value := do
  match v.whole? with
  | some n => return .int n
  | none =>
      let x ← ofExcept v.real
      match f x with
      | some n => return .int n
      | none => return .int (← ofExcept (wholeOfFloat x))

def runMath (f : MathFn) (args : List Value) : Routine Value := do
  let a := args.getD 0 .null
  let b := args.getD 1 .null
  match f with
  | .abs => real (← ofExcept a.real).abs
  | .sqrt =>
      let x ← ofExcept a.real
      if x < 0 then domainFault else real x.sqrt
  | .pow =>
      let x ← ofExcept a.real
      power x (← ofExcept b.real)
  | .floor => wholeNear floor a
  | .ceil => wholeNear ceiling a
  | .round => attributeFault "module 'math' has no attribute 'round'"
  | .sin => onFinite Float.sin (← ofExcept a.real)
  | .cos => onFinite Float.cos (← ofExcept a.real)
  | .tan => onFinite Float.tan (← ofExcept a.real)
  | .random => return .float (← randomUnit)
  | .randint => randomInt a b
  | .max | .min => fail .tooDeep

def mathConstant? (name : String) : Option Value :=
  match name with
  | "PI" => some (.float 3.141592653589793)
  | "E" => some (.float 2.718281828459045)
  | _ => none

end ScriptLang.Package
