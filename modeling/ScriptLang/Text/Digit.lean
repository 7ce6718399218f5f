import ScriptLang.Text.Letter

/-!
# Digits

Two notions of digit. `isDigit` holds for every character whose Unicode digit value is defined,
superscripts and circled digits included; `decimalValue` is defined only for the decimal digits
of a positional script, which come in blocks of ten.
-/

set_option maxRecDepth 8000

namespace ScriptLang.Text

/-- The characters above ASCII with a digit value. -/
def digitRanges : List (Nat × Nat) := rangesFrom 0
  [178,2,5,1,1446,10,134,10,198,10,412,10,118,10,118,10,118,10,118,10,118,10,118,10,118,10,118,10,
   118,10,96,10,118,10,70,10,278,10,70,10,719,9,1134,10,38,10,300,10,128,11,165,10,6,10,182,10,86,
   10,134,10,6,10,1046,1,3,6,6,10,982,9,11,9,11,9,89,1,10,9,1,1,630,9,1,9,1,9,32397,10,678,10,38,
   10,198,10,22,10,86,10,406,10,21270,10,1414,10,1430,4,748,10,294,9,489,9,11,10,128,10,60,10,144,
   10,278,10,342,10,118,10,374,10,102,10,102,10,422,10,102,10,758,10,246,10,70,10,19638,10,86,10,
   134,10,27764,50,2368,10,422,10,1622,10,1958,11,2789,10]

/-- The zeros of the decimal scripts above ASCII; the nine characters after each are its other
digits. -/
def decimalZeros : List Nat :=
  [1632, 1776, 1984, 2406, 2534, 2662, 2790, 2918, 3046, 3174, 3302, 3430, 3558, 3664, 3792, 3872,
   4160, 4240, 6112, 6160, 6470, 6608, 6784, 6800, 6992, 7088, 7232, 7248, 42528, 43216, 43264,
   43472, 43504, 43600, 44016, 65296, 66720, 68912, 69734, 69872, 69942, 70096, 70384, 70736, 70864,
   71248, 71360, 71472, 71904, 72016, 72784, 73040, 73120, 92768, 92864, 93008, 120782, 120792,
   120802, 120812, 120822, 123200, 123632, 125264, 130032]

def isDigit (c : Char) : Bool :=
  if c.toNat < 128 then c.isDigit else inRanges digitRanges c.toNat

def decimalValue (c : Char) : Option Nat :=
  if c.toNat < 128 then (if c.isDigit then some (c.toNat - 48) else none)
  else (decimalZeros.find? fun z => z ≤ c.toNat && c.toNat < z + 10).map (c.toNat - ·)

end ScriptLang.Text
