/-!
# Base64

Reading bytes written with sixty-four characters, four of which stand for three bytes. Characters
that are none of them are passed over.
-/

namespace ScriptLang.Base64

inductive Base64Error where
  /-- one character is left over after `bytes` bytes -/
  | leftOver (bytes : Nat)
  | padding
deriving DecidableEq, Repr

def Base64Error.message : Base64Error → String
  | .leftOver n =>
      s!"Invalid base64-encoded string: number of data characters ({n / 3 * 4 + 1}) "
        ++ "cannot be 1 more than a multiple of 4"
  | .padding => "Incorrect padding"

def digit (b : UInt8) : Option Nat :=
  let c := Char.ofNat b.toNat
  if c.isUpper then some (c.toNat - 65)
  else if c.isLower then some (c.toNat - 71)
  else if c.isDigit then some (c.toNat + 4)
  else if c == '+' then some 62
  else if c == '/' then some 63
  else none

/-- A reader: the place in the group of four, the bits left over, the padding seen, and the bytes so
far with the latest first. -/
structure Reader where
  place : Nat := 0
  left : Nat := 0
  pads : Nat := 0
  out : List UInt8 := []

def Reader.take (r : Reader) (n : Nat) : Reader :=
  match r.place with
  | 0 => { r with place := 1, left := n, pads := 0 }
  | 1 => { place := 2, left := n % 16, out := (r.left * 4 + n / 16).toUInt8 :: r.out }
  | 2 => { place := 3, left := n % 4, out := (r.left * 16 + n / 4).toUInt8 :: r.out }
  | _ => { place := 0, left := 0, out := (r.left * 64 + n).toUInt8 :: r.out }

/-- Reads characters up to padding that ends a group. -/
def readFrom : List UInt8 → Reader → Except Base64Error (List UInt8)
  | [], r =>
      if r.place = 0 then .ok r.out.reverse
      else if r.place = 1 then .error (.leftOver r.out.length)
      else .error .padding
  | b :: bs, r =>
      if b = 61 then
        if 2 ≤ r.place && 4 ≤ r.place + r.pads + 1 then .ok r.out.reverse
        else readFrom bs (if 2 ≤ r.place then { r with pads := r.pads + 1 } else r)
      else
        match digit b with
        | some n => readFrom bs (r.take n)
        | none => readFrom bs r

def read (bs : List UInt8) : Except Base64Error (List UInt8) :=
  readFrom bs {}

end ScriptLang.Base64
