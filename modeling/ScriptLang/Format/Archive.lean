import ScriptLang.Format.Digest
import ScriptLang.Text.Utf8

/-!
# Archives

Files packed into one in the ZIP format: every entry is stored as it is behind a header, and a
directory of all headers stands at the end.
-/

namespace ScriptLang.Archive

/-- A packed file; the name of a directory ends in a slash. -/
structure Entry where
  name : String
  content : List UInt8

def crcShift (c : UInt32) : UInt32 :=
  if c &&& (1 : UInt32) = 1 then (c >>> (1 : UInt32)) ^^^ 0xEDB88320 else c >>> (1 : UInt32)

def crcByte (c : UInt32) (b : UInt8) : UInt32 :=
  (List.range 8).foldl (fun c _ => crcShift c) (c ^^^ b.toUInt32)

def crc32 (bytes : List UInt8) : UInt32 :=
  (bytes.foldl crcByte 0xFFFFFFFF) ^^^ 0xFFFFFFFF

/-- A number in `count` bytes, the least significant one first. -/
def field (count n : Nat) : List UInt8 :=
  (Digest.toBytes count n).reverse

/-- The number in the bytes from a place on, the least significant one first. -/
def fieldAt (bytes : List UInt8) (start count : Nat) : Nat :=
  Digest.ofBytes ((bytes.drop start).take count).reverse

/-- What both headers of an entry say: version, flags, method, time, checksum, sizes, and the
lengths of the name and of nothing more. -/
def description (e : Entry) : List UInt8 :=
  field 2 20 ++ field 2 0x800 ++ field 2 0 ++ field 2 0 ++ field 2 33
    ++ field 4 (crc32 e.content).toNat ++ field 4 e.content.length ++ field 4 e.content.length
    ++ field 2 e.name.utf8ByteSize ++ field 2 0

/-- The mark of the header in front of an entry. -/
def localMark : List UInt8 := [0x50, 0x4b, 3, 4]

def directoryMark : List UInt8 := [0x50, 0x4b, 1, 2]

def endMark : List UInt8 := [0x50, 0x4b, 5, 6]

def packed (e : Entry) : List UInt8 :=
  localMark ++ description e ++ e.name.toUTF8.toList ++ e.content

def listed (e : Entry) (offset : Nat) : List UInt8 :=
  directoryMark ++ field 2 20 ++ description e ++ field 2 0 ++ field 2 0 ++ field 2 0 ++ field 4 0
    ++ field 4 offset ++ e.name.toUTF8.toList

def write (entries : List Entry) : List UInt8 :=
  let (body, directory) := entries.foldl (fun (body, directory) e =>
    (body ++ packed e, directory ++ listed e body.length)) (([], []) : List UInt8 × List UInt8)
  body ++ directory ++ endMark ++ field 2 0 ++ field 2 0 ++ field 2 entries.length
    ++ field 2 entries.length ++ field 4 directory.length ++ field 4 body.length ++ field 2 0

/-- The entry that a header in the directory describes. -/
def entryAt (bytes header : List UInt8) (shift : Nat) : Option Entry :=
  let nameLength := fieldAt header 28 2
  let start := shift + fieldAt header 42 4
  let lead := bytes.drop start
  if localMark.isPrefixOf lead && fieldAt header 10 2 = 0 then
    let content :=
      (lead.drop (30 + fieldAt lead 26 2 + fieldAt lead 28 2)).take (fieldAt header 20 4)
    match Text.decodeUtf8 ((header.drop 46).take nameLength) with
    | .ok name => some { name, content }
    | .error _ => none
  else none

def entriesFrom (bytes : List UInt8) (shift : Nat) : Nat → List UInt8 → Option (List Entry)
  | 0, _ => some []
  | n + 1, header => do
      guard (directoryMark.isPrefixOf header)
      let e ← entryAt bytes header shift
      let size := 46 + fieldAt header 28 2 + fieldAt header 30 2 + fieldAt header 32 2
      return e :: (← entriesFrom bytes shift n (header.drop size))

/-- The place of the last end mark that has a whole end record after it. -/
def endPlace (bytes : List UInt8) : Nat → Option Nat
  | 0 => if endMark.isPrefixOf bytes then some 0 else none
  | i + 1 => if endMark.isPrefixOf (bytes.drop (i + 1)) then some (i + 1) else endPlace bytes i

/-- The entries of an archive; none when the bytes are no archive. -/
def read (bytes : List UInt8) : Option (List Entry) := do
  guard (22 ≤ bytes.length)
  let place ← endPlace bytes (bytes.length - 22)
  let record := bytes.drop place
  let size := fieldAt record 12 4
  let offset := fieldAt record 16 4
  guard (size + offset ≤ place)
  let shift := place - size - offset
  entriesFrom bytes shift (fieldAt record 10 2) (bytes.drop (place - size))

end ScriptLang.Archive
