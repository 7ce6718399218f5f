import ScriptLang.Text.Printable

/-!
# Quoted text

The form in which texts appear inside printed arrays and objects. The quote is the apostrophe
unless the text has an apostrophe and no double quote; the quote in use and the backslash are
escaped, and so is every character that is not printable.
-/

namespace ScriptLang.Text

/-- The digits of `n` in base sixteen, padded with zeros to `width`. -/
def hex (width n : Nat) : List Char :=
  let ds := Nat.toDigits 16 n
  List.replicate (width - ds.length) '0' ++ ds

/-- The escape of a character that is not printable: two, four or eight hexadecimal digits. -/
def escapeUnprintable (c : Char) : List Char :=
  let n := c.toNat
  if n < 256 then '\\' :: 'x' :: hex 2 n
  else if n < 65536 then '\\' :: 'u' :: hex 4 n
  else '\\' :: 'U' :: hex 8 n

def quoteChar (q c : Char) : List Char :=
  if c = q || c = '\\' then ['\\', c]
  else if c = '\n' then ['\\', 'n']
  else if c = '\r' then ['\\', 'r']
  else if c = '\t' then ['\\', 't']
  else if isPrintable c then [c]
  else escapeUnprintable c

def quoteFor (cs : List Char) : Char :=
  if cs.contains '\'' && !cs.contains '"' then '"' else '\''

def quoted (s : String) : String :=
  let cs := s.toList
  let q := quoteFor cs
  String.ofList (q :: cs.flatMap (quoteChar q) ++ [q])

def quoteByte (q : Char) (b : UInt8) : List Char :=
  let c := Char.ofNat b.toNat
  if c.toNat < 127 then quoteChar q c else '\\' :: 'x' :: hex 2 b.toNat

/-- A byte string in quotes, marked by a leading `b`. -/
def quotedBytes (bytes : List UInt8) : String :=
  let q := quoteFor (bytes.map fun b => Char.ofNat b.toNat)
  String.ofList ('b' :: q :: bytes.flatMap (quoteByte q) ++ [q])

end ScriptLang.Text
