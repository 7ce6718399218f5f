/-!
# Binary floating point, exactly

A finite 64-bit float is a whole number times a power of two. This module takes floats apart into
that form and rounds exact ratios back to the nearest float, ties to the even significand, so that
comparison, remainder, rounding and conversion can be done in whole numbers.
-/

namespace ScriptLang.Number

def pow2 (n : Nat) : Nat := Nat.pow 2 n

def pow10 (n : Nat) : Nat := Nat.pow 10 n

/-- A float taken apart: `finite neg m q` is `m * 2 ^ q`, negative when `neg`. -/
inductive Binary where
  | nan
  | infinite (neg : Bool)
  | finite (neg : Bool) (m : Nat) (q : Int)
deriving DecidableEq, Repr

def Binary.ofFloat (x : Float) : Binary :=
  let bits := x.toBits.toNat
  let neg := bits / pow2 63 == 1
  let field : Nat := bits / pow2 52 % 2048
  let frac : Nat := bits % pow2 52
  if field == 2047 then (if frac == 0 then .infinite neg else .nan)
  else if field == 0 then .finite neg frac (-1074)
  else .finite neg (pow2 52 + frac) ((field : Int) - 1075)

/-- The float with the given sign, exponent field and fraction. -/
def assemble (neg : Bool) (field frac : Nat) : Float :=
  Float.ofBits ((if neg then pow2 63 else 0) + field * pow2 52 + frac : Nat).toUInt64

def infinity (neg : Bool) : Float := assemble neg 2047 0

def notANumber : Float := assemble false 2047 (pow2 51)

def zero (neg : Bool) : Float := assemble neg 0 0

/-- `num / den` rounded to the nearest whole number, a half to the even neighbour. -/
def roundHalfEven (num den : Nat) : Nat :=
  let m := num / den
  let r := num % den
  if 2 * r < den then m
  else if den < 2 * r then m + 1
  else if m % 2 == 0 then m else m + 1

def scaleRatio (num den : Nat) (k : Int) : Nat × Nat :=
  match k with
  | .ofNat n => (num * pow2 n, den)
  | .negSucc n => (num, den * pow2 (n + 1))

/-- The float nearest to `num / den`, ties to the even significand; beyond the largest float it is
infinite. -/
def ofRatio (neg : Bool) (num den : Nat) : Float :=
  if num = 0 || den = 0 then zero neg
  else
    let e0 : Int := (Nat.log2 num : Int) - (Nat.log2 den : Int)
    let s := scaleRatio num den (-e0)
    let e : Int := if s.1 < s.2 then e0 - 1 else e0
    let q : Int := max (e - 52) (-1074)
    let r := scaleRatio num den (-q)
    let m := roundHalfEven r.1 r.2
    let m' := if m == pow2 53 then pow2 52 else m
    let q' := if m == pow2 53 then q + 1 else q
    if m' < pow2 52 then assemble neg 0 m'
    else
      let field := (q' + 1075).toNat
      if 2047 ≤ field then infinity neg else assemble neg field (m' - pow2 52)

def ofInt (n : Int) : Float :=
  ofRatio (n < 0) n.natAbs 1

def ratioOf (m : Nat) (q : Int) : Nat × Nat :=
  scaleRatio m 1 q

/-- Whole numbers beyond this magnitude have no float. -/
def fitsFloat (n : Int) : Bool :=
  match Binary.ofFloat (ofInt n) with
  | .finite .. => true
  | _ => false

/-- Compares a finite float with a whole number, exactly; `none` when the float is not a number. -/
def compareInt (x : Float) (n : Int) : Option Ordering :=
  match Binary.ofFloat x with
  | .nan => none
  | .infinite neg => some (if neg then .lt else .gt)
  | .finite neg m q =>
      let r := ratioOf m q
      let num : Int := if neg then -(r.1 : Int) else r.1
      some (compare num (n * r.2))

/-- Compares two floats; `none` when one is not a number. -/
def compareFloat (x y : Float) : Option Ordering :=
  if x < y then some .lt else if y < x then some .gt else if x == y then some .eq else none

/-- The whole part of a finite float, toward zero. -/
def truncate (x : Float) : Option Int :=
  match Binary.ofFloat x with
  | .finite neg m q =>
      let r := ratioOf m q
      let n : Int := (r.1 / r.2 : Nat)
      some (if neg then -n else n)
  | _ => none

/-- The greatest whole number not above a finite float. -/
def floor (x : Float) : Option Int :=
  match Binary.ofFloat x with
  | .finite neg m q =>
      let r := ratioOf m q
      let num : Int := if neg then -(r.1 : Int) else r.1
      some (num.fdiv r.2)
  | _ => none

/-- The least whole number not below a finite float. -/
def ceiling (x : Float) : Option Int :=
  match Binary.ofFloat x with
  | .finite neg m q =>
      let r := ratioOf m q
      let num : Int := if neg then -(r.1 : Int) else r.1
      some (-((-num).fdiv r.2))
  | _ => none

/-- The nearest whole number to a finite float, a half to the even neighbour. -/
def nearest (x : Float) : Option Int :=
  match Binary.ofFloat x with
  | .finite neg m q =>
      let r := ratioOf m q
      let n : Int := roundHalfEven r.1 r.2
      some (if neg then -n else n)
  | _ => none

def isWhole (x : Float) : Bool :=
  match Binary.ofFloat x with
  | .finite _ m q => let r := ratioOf m q; r.1 % r.2 == 0
  | _ => false

def isNegative (x : Float) : Bool :=
  x.toBits.toNat / pow2 63 == 1

/-- The remainder of a division of magnitudes, with the sign of the dividend; exact. -/
def remainder (x y : Float) : Float :=
  match Binary.ofFloat x, Binary.ofFloat y with
  | .finite neg m q, .finite _ n p =>
      if n = 0 then notANumber
      else
        let k := min q p
        let a := m * pow2 (q - k).toNat
        let b := n * pow2 (p - k).toNat
        let r := ratioOf (a % b) k
        ofRatio neg r.1 r.2
  | .finite .., .infinite _ => x
  | _, _ => notANumber

/-- The remainder with the sign of the divisor: the division rounds down. -/
def modulo (x y : Float) : Float :=
  let r := remainder x y
  if r == 0 then zero (isNegative y)
  else if (y < 0) != (r < 0) then r + y else r

/-- The quotient rounded down to a whole float. -/
def floorQuotient (x y : Float) : Float :=
  let r := remainder x y
  let d := (x - r) / y
  let d := if r != 0 && (y < 0) != (r < 0) then d - 1 else d
  if d == 0 then zero (isNegative (x / y))
  else if d - d.floor > 0.5 then d.floor + 1 else d.floor

/-- Rounds a float to `places` decimal places (tens, hundreds and so on when negative), a half of
the exact value to the even neighbour. -/
def roundPlaces (x : Float) (places : Int) : Float :=
  match Binary.ofFloat x with
  | .finite neg m q =>
      if places > 400 then x
      else if places < -400 then zero neg
      else
        let r := ratioOf m q
        match places with
        | .ofNat n =>
            let k := roundHalfEven (r.1 * pow10 n) r.2
            ofRatio neg k (pow10 n)
        | .negSucc n =>
            let k := roundHalfEven r.1 (r.2 * pow10 (n + 1))
            ofRatio neg (k * pow10 (n + 1)) 1
  | _ => x

/-- Rounds a whole number to a multiple of `10 ^ n`, a half to the even neighbour. -/
def roundTens (k : Int) (n : Nat) : Int :=
  let r : Int := roundHalfEven k.natAbs (pow10 n) * pow10 n
  if k < 0 then -r else r

end ScriptLang.Number
