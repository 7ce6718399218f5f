import ScriptLang.Text.Quoted

/-!
# UTF-8

Reading bytes as text. The first byte that does not fit is reported with its position and the
reason: no character starts with it, its character is broken off by another byte, or the bytes end
too early.
-/

namespace ScriptLang.Text

/-- Why bytes are not text: the bytes from `start` up to `stop` do not fit. -/
structure Utf8Error where
  start : Nat
  stop : Nat
  /-- the byte at the start -/
  byte : Nat
  reason : String
deriving DecidableEq, Repr

def Utf8Error.message (e : Utf8Error) : String :=
  let what :=
    if e.stop = e.start + 1 then
      "byte 0x" ++ String.ofList (hex 2 e.byte) ++ s!" in position {e.start}"
    else s!"bytes in position {e.start}-{e.stop - 1}"
  "'utf-8' codec can't decode " ++ what ++ ": " ++ e.reason

/-- The number of bytes of the character that a byte starts, and the bounds of the byte after it. -/
def leadByte (b : Nat) : Option (Nat × Nat × Nat) :=
  if b < 0x80 then some (1, 0, 0)
  else if b < 0xC2 then none
  else if b < 0xE0 then some (2, 0x80, 0xBF)
  else if b = 0xE0 then some (3, 0xA0, 0xBF)
  else if b = 0xED then some (3, 0x80, 0x9F)
  else if b < 0xF0 then some (3, 0x80, 0xBF)
  else if b = 0xF0 then some (4, 0x90, 0xBF)
  else if b < 0xF4 then some (4, 0x80, 0xBF)
  else if b = 0xF4 then some (4, 0x80, 0x8F)
  else none

/-- Takes `count` bytes after the first, the next of them between the given bounds: their value on
top of `acc`, and the rest. An error carries the number of bytes that fit and the reason. -/
def continuation : Nat → Nat → Nat → Nat → Nat → List UInt8 →
    Except (Nat × String) (Nat × List UInt8)
  | 0, _, _, acc, _, bs => .ok (acc, bs)
  | _ + 1, _, _, _, taken, [] => .error (taken, "unexpected end of data")
  | count + 1, low, high, acc, taken, b :: bs =>
      let n := b.toNat
      if low ≤ n && n ≤ high then continuation count 0x80 0xBF (acc * 64 + n % 64) (taken + 1) bs
      else .error (taken, "invalid continuation byte")

/-- The bits of a first byte that belong to the character. -/
def leadBits (count b : Nat) : Nat :=
  if count = 1 then b else if count = 2 then b % 32 else if count = 3 then b % 16 else b % 8

/-- Decodes the bytes from position `pos` on. Every round takes a byte, so `fuel` need not exceed
their number. The characters are gathered last first. -/
def decodeFrom : Nat → Nat → List UInt8 → List Char → Except Utf8Error (List Char)
  | 0, _, _, acc => .ok acc.reverse
  | _ + 1, _, [], acc => .ok acc.reverse
  | fuel + 1, pos, b :: bs, acc =>
      let n := b.toNat
      match leadByte n with
      | none => .error ⟨pos, pos + 1, n, "invalid start byte"⟩
      | some (count, low, high) =>
          match continuation (count - 1) low high (leadBits count n) 1 bs with
          | .error (taken, reason) => .error ⟨pos, pos + taken, n, reason⟩
          | .ok (code, rest) => decodeFrom fuel (pos + count) rest (Char.ofNat code :: acc)

def decodeUtf8 (bytes : List UInt8) : Except Utf8Error String :=
  String.ofList <$> decodeFrom bytes.length 0 bytes []

/-- Decodes bytes, with a replacement character for each stretch that does not fit. Every round
takes a byte, so `fuel` need not exceed their number. The characters are gathered last first. -/
def decodeLossyFrom : Nat → List UInt8 → List Char → List Char
  | 0, _, acc => acc.reverse
  | _ + 1, [], acc => acc.reverse
  | fuel + 1, b :: bs, acc =>
      let n := b.toNat
      match leadByte n with
      | none => decodeLossyFrom fuel bs ('\uFFFD' :: acc)
      | some (count, low, high) =>
          match continuation (count - 1) low high (leadBits count n) 1 bs with
          | .error (taken, _) => decodeLossyFrom fuel (bs.drop (taken - 1)) ('\uFFFD' :: acc)
          | .ok (code, rest) => decodeLossyFrom fuel rest (Char.ofNat code :: acc)

/-- The text of bytes, with a replacement character for what is not text. -/
def decodeUtf8Lossy (bytes : List UInt8) : String :=
  String.ofList (decodeLossyFrom bytes.length bytes [])

end ScriptLang.Text
