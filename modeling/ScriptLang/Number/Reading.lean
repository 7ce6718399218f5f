import ScriptLang.Number.Binary64
import ScriptLang.Text.Blank
import ScriptLang.Text.Digit

/-!
# Reading numbers

Whole numbers and floats from text: white space around the number is ignored, a sign is allowed,
digits may be of any decimal script, and single underscores may stand between digits.
-/

namespace ScriptLang.Number

open ScriptLang.Text

inductive NotWhole where
  /-- it is not written as one -/
  | malformed
  /-- it has more digits than are read -/
  | tooLong (digits : Nat)
deriving DecidableEq, Repr

/-- An optional sign and the rest; true for minus. -/
def readSign : List Char → Bool × List Char
  | '-' :: cs => (true, cs)
  | '+' :: cs => (false, cs)
  | cs => (false, cs)

/-- Digits with single underscores between them, as their values and the rest of the text.
`afterDigit` says that a digit stands just before. -/
def readDigits : Bool → List Char → List Nat × List Char
  | _, [] => ([], [])
  | afterDigit, c :: cs =>
      match decimalValue c with
      | some d =>
          let r := readDigits true cs
          (d :: r.1, r.2)
      | none =>
          if afterDigit && c = '_' && (cs.head?.bind decimalValue).isSome then readDigits false cs
          else ([], c :: cs)

def ofDigits (ds : List Nat) : Nat :=
  ds.foldl (fun n d => 10 * n + d) 0

/-- Reads a whole number that fills the text, white space around it aside. -/
def readWhole (limit : Nat) (s : List Char) : Except NotWhole Int :=
  let (neg, cs) := readSign (trimBy isBlank s)
  let (ds, rest) := readDigits false cs
  if ds.isEmpty || !rest.isEmpty then .error .malformed
  else if limit < ds.length then .error (.tooLong ds.length)
  else .ok (if neg then -(ofDigits ds : Int) else ofDigits ds)

/-- The float nearest to `n * 10 ^ e`. Exponents far outside the range of floats are decided by
magnitude alone. -/
def ofDecimal (neg : Bool) (n : Nat) (digitCount : Nat) (e : Int) : Float :=
  if n = 0 then zero neg
  else if (digitCount : Int) + e > 400 then infinity neg
  else if (digitCount : Int) + e < -400 then zero neg
  else
    match e with
    | .ofNat k => ofRatio neg (n * pow10 k) 1
    | .negSucc k => ofRatio neg n (pow10 (k + 1))

/-- The text in small ASCII letters. -/
def lowerAscii (cs : List Char) : List Char :=
  cs.map Char.toLower

/-- Reads the exponent after its mark; `none` when no digit follows. -/
def readExponent (cs : List Char) : Option (Int × List Char) :=
  let (neg, cs) := readSign cs
  let (ds, rest) := readDigits false cs
  if ds.isEmpty then none
  else some ((if neg then -(ofDigits ds : Int) else ofDigits ds), rest)

/-- Reads the places after a point, if one stands there. -/
def readPlaces : List Char → List Nat × List Char
  | '.' :: tail => readDigits false tail
  | cs => ([], cs)

/-- Reads an exponent that fills the text; without one it is zero. Exponents beyond a million are
cut off there. -/
def readPower : List Char → Option Int
  | [] => some 0
  | c :: tail =>
      if c = 'e' || c = 'E' then
        match readExponent tail with
        | some (e, []) =>
            some (if e.natAbs > 1000000 then (if e < 0 then -1000000 else 1000000) else e)
        | _ => none
      else none

/-- Reads an unsigned decimal that fills the text: digits, a point, digits, an exponent; at least
one digit before or after the point. -/
def readDecimal (neg : Bool) (cs : List Char) : Option Float :=
  let (whole, rest) := readDigits false cs
  let (places, rest) := readPlaces rest
  let ds := whole ++ places
  if ds.isEmpty then none
  else (readPower rest).map fun e => ofDecimal neg (ofDigits ds) ds.length (e - places.length)

/-- Reads a float that fills the text, white space around it aside. -/
def readFloat (s : List Char) : Option Float :=
  let (neg, cs) := readSign (trimBy isBlank s)
  let word := lowerAscii cs
  if word = "inf".toList || word = "infinity".toList then some (infinity neg)
  else if word = "nan".toList then some notANumber
  else readDecimal neg cs

end ScriptLang.Number
