/-!
# Positions counted from either end

An index into a sequence counts from the front when it is not negative and from the back otherwise.
Slices cut their bounds to the sequence.
-/

namespace ScriptLang

/-- The place an index means in a sequence of the given length, if it has one. -/
def place? (length : Nat) (i : Int) : Option Nat :=
  let j := if i < 0 then i + length else i
  if 0 ≤ j ∧ j < length then some j.toNat else none

/-- A slice bound cut to the sequence. -/
def sliceBound (length : Nat) (i : Int) : Nat :=
  let j := if i < 0 then i + length else i
  min j.toNat length

/-- The items from one bound up to another. -/
def sliceList {α : Type} (xs : List α) (start stop : Int) : List α :=
  let n := xs.length
  let i := sliceBound n start
  (xs.drop i).take (sliceBound n stop - i)

def sliceArray {α : Type} (xs : Array α) (start stop : Int) : Array α :=
  xs.extract (sliceBound xs.size start) (sliceBound xs.size stop)

end ScriptLang
