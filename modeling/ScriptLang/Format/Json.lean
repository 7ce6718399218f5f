import ScriptLang.Number.Decimal
import ScriptLang.Number.Reading
import ScriptLang.Text.Quoted

/-!
# JSON

Documents, their text, and how text is read back. Reading reports the first place that does not
fit; writing escapes everything outside printable ASCII and is either on one line or indented.
-/

namespace ScriptLang

open ScriptLang.Number ScriptLang.Text

/-- A document. Fields keep their order, and a name can occur more than once. -/
inductive Json where
  | null
  | bool (b : Bool)
  | whole (n : Int)
  | real (x : Float)
  | text (s : String)
  | list (items : List Json)
  | fields (fs : List (String × Json))

inductive JsonError where
  /-- what was expected or found, and how many characters of the text are left there -/
  | at (what : String) (left : Nat)
  /-- a whole number with too many digits -/
  | digits (count : Nat)
  | tooDeep
deriving DecidableEq

namespace Json

/-- The blanks of documents. -/
def isGap (c : Char) : Bool :=
  c = ' ' || c = '\t' || c = '\n' || c = '\r'

def skipGap (cs : List Char) : List Char :=
  cs.dropWhile isGap

/-- An error at the start of the remaining text. -/
def fail {α : Type} (what : String) (cs : List Char) : Except JsonError α :=
  .error (.at what cs.length)

def hexValue (c : Char) : Option Nat :=
  if '0' ≤ c && c ≤ '9' then some (c.toNat - 48)
  else if 'a' ≤ c && c ≤ 'f' then some (c.toNat - 87)
  else if 'A' ≤ c && c ≤ 'F' then some (c.toNat - 55)
  else none

/-- Four hexadecimal digits that are not the end of the text. -/
def readUnit : List Char → Option (Nat × List Char)
  | a :: b :: c :: d :: e :: rest =>
      match hexValue a, hexValue b, hexValue c, hexValue d with
      | some a, some b, some c, some d => some (((a * 16 + b) * 16 + c) * 16 + d, e :: rest)
      | _, _, _, _ => none
  | _ => none

def simpleEscape (c : Char) : Option Char :=
  if c = '"' || c = '\\' || c = '/' then some c
  else if c = 'b' then some (Char.ofNat 8)
  else if c = 'f' then some (Char.ofNat 12)
  else if c = 'n' then some '\n'
  else if c = 'r' then some '\r'
  else if c = 't' then some '\t'
  else none

/-- The first half of a character outside the basic plane. -/
def isHighHalf (n : Nat) : Bool := 0xD800 ≤ n && n < 0xDC00

/-- The second half of a character outside the basic plane. -/
def isLowHalf (n : Nat) : Bool := 0xDC00 ≤ n && n < 0xE000

/-- The character of a code unit; a half of its own has none and becomes the replacement mark. -/
def unitChar (n : Nat) : Char :=
  if isHighHalf n || isLowHalf n then Char.ofNat 0xFFFD else Char.ofNat n

def joinHalves (high low : Nat) : Char :=
  Char.ofNat (0x10000 + (high - 0xD800) * 1024 + (low - 0xDC00))

/-- Reads an escape of four hexadecimal digits after its letter `u`, together with a second one
that completes the character. -/
def readEscapedUnit (fromU : List Char) : Except JsonError (Char × List Char) :=
  match readUnit (fromU.drop 1) with
  | none => fail "Invalid \\uXXXX escape" fromU
  | some (n, rest) =>
      match rest with
      | '\\' :: 'u' :: tail =>
          if isHighHalf n && 6 < rest.length then
            match readUnit tail with
            | none => fail "Invalid \\uXXXX escape" ('u' :: tail)
            | some (m, rest') =>
                if isLowHalf m then .ok (joinHalves n m, rest') else .ok (unitChar n, rest)
          else .ok (unitChar n, rest)
      | _ => .ok (unitChar n, rest)

/-- Reads a text after its opening quote; `start` is the remaining text from that quote on. Every
round takes a character, so `fuel` need not exceed their number. -/
def readText (start : Nat) : Nat → List Char → Except JsonError (List Char × List Char)
  | 0, _ => .error (.at "Unterminated string starting at" start)
  | fuel + 1, cs =>
      match cs with
      | [] => .error (.at "Unterminated string starting at" start)
      | '"' :: rest => .ok ([], rest)
      | '\\' :: rest =>
          match rest with
          | [] => .error (.at "Unterminated string starting at" start)
          | 'u' :: _ => do
              let (c, rest) ← readEscapedUnit rest
              let (s, rest) ← readText start fuel rest
              return (c :: s, rest)
          | c :: rest =>
              match simpleEscape c with
              | none => fail "Invalid \\escape" cs
              | some d => do
                  let (s, rest) ← readText start fuel rest
                  return (d :: s, rest)
      | c :: rest =>
          if c.toNat < 32 then fail "Invalid control character at" cs
          else do
            let (s, rest) ← readText start fuel rest
            return (c :: s, rest)

/-- The fraction after a number, if there is one: a point and at least one digit. -/
def splitFraction (cs : List Char) : List Char × List Char :=
  match cs with
  | '.' :: d :: rest =>
      if d.isDigit then
        ('.' :: (d :: rest).takeWhile Char.isDigit, (d :: rest).dropWhile Char.isDigit)
      else ([], cs)
  | _ => ([], cs)

/-- The exponent after a number, if there is one: a mark, a sign and at least one digit. -/
def splitExponent (cs : List Char) : List Char × List Char :=
  match cs with
  | e :: rest =>
      if e = 'e' || e = 'E' then
        let (sign, rest) :=
          match rest with
          | '-' :: rest => (['-'], rest)
          | '+' :: rest => (['+'], rest)
          | rest => ([], rest)
        let ds := rest.takeWhile Char.isDigit
        if ds.isEmpty then ([], cs) else (e :: sign ++ ds, rest.dropWhile Char.isDigit)
      else ([], cs)
  | [] => ([], cs)

/-- The minus before a number, if there is one. -/
def splitMinus : List Char → List Char × List Char
  | '-' :: rest => (['-'], rest)
  | rest => ([], rest)

/-- The digits of a whole number: a zero stands for itself. -/
def splitWhole : List Char → List Char × List Char
  | '0' :: rest => (['0'], rest)
  | cs => (cs.takeWhile Char.isDigit, cs.dropWhile Char.isDigit)

def readNumber (cs : List Char) : Except JsonError (Json × List Char) :=
  let (sign, body) := splitMinus cs
  let (ds, rest) := splitWhole body
  if ds.isEmpty then fail "Expecting value" cs
  else
    let (fraction, rest) := splitFraction rest
    let (exponent, rest) := splitExponent rest
    if fraction.isEmpty && exponent.isEmpty then
      match readWhole maxDigits (sign ++ ds) with
      | .ok n => .ok (.whole n, rest)
      | .error (.tooLong n) => .error (.digits n)
      | .error .malformed => fail "Expecting value" cs
    else
      match readFloat (sign ++ ds ++ fraction ++ exponent) with
      | some x => .ok (.real x, rest)
      | none => fail "Expecting value" cs

def words : List (List Char × Json) :=
  [("null".toList, .null), ("true".toList, .bool true), ("false".toList, .bool false),
   ("NaN".toList, .real notANumber), ("Infinity".toList, .real (infinity false)),
   ("-Infinity".toList, .real (infinity true))]

/-- The word at the start of the text, if one is there. -/
def readWord (cs : List Char) : Option (Json × List Char) :=
  (words.find? fun w => w.1.isPrefixOf cs).map fun w => (w.2, cs.drop w.1.length)

/-- Reads parts with commas between them, up to the mark that closes them. -/
def readParts {α : Type} (close : Char) (part : List Char → Except JsonError (α × List Char)) :
    Nat → List Char → Except JsonError (List α × List Char)
  | 0, cs => fail "Expecting value" cs
  | fuel + 1, cs => do
      let (x, rest) ← part cs
      let rest := skipGap rest
      if rest.head? = some close then return ([x], rest.tail)
      else if rest.head? = some ',' then
        let (xs, rest) ← readParts close part fuel (skipGap rest.tail)
        return (x :: xs, rest)
      else fail "Expecting ',' delimiter" rest

/-- Reads what an opening mark encloses: parts, or nothing before the mark that closes it. -/
def readEnclosed {α : Type} (total : Nat) (close : Char)
    (part : List Char → Except JsonError (α × List Char)) (cs : List Char) :
    Except JsonError (List α × List Char) :=
  let rest := skipGap cs
  if rest.head? = some close then .ok ([], rest.tail) else readParts close part (total + 1) rest

/-- Reads a field: its name in quotes, a colon and its value. -/
def readField (total : Nat) (value : List Char → Except JsonError (Json × List Char)) :
    List Char → Except JsonError ((String × Json) × List Char)
  | '"' :: tail => do
      let (name, rest) ← readText (tail.length + 1) total tail
      match skipGap rest with
      | ':' :: rest =>
          let (v, rest) ← value (skipGap rest)
          return ((String.ofList name, v), rest)
      | rest => fail "Expecting ':' delimiter" rest
  | cs => fail "Expecting property name enclosed in double quotes" cs

/-- Reads a value with at most `depth` levels of nesting, from a text of at most `total`
characters. -/
def readValue (total : Nat) : Nat → List Char → Except JsonError (Json × List Char)
  | 0, _ => .error .tooDeep
  | depth + 1, cs =>
      match cs with
      | [] => fail "Expecting value" cs
      | '"' :: tail => do
          let (s, rest) ← readText cs.length total tail
          return (.text (String.ofList s), rest)
      | '{' :: tail => do
          let (fs, rest) ← readEnclosed total '}' (readField total (readValue total depth)) tail
          return (.fields fs, rest)
      | '[' :: tail => do
          let (vs, rest) ← readEnclosed total ']' (readValue total depth) tail
          return (.list vs, rest)
      | cs =>
          match readWord cs with
          | some r => .ok r
          | none => readNumber cs

/-- How deep documents may nest, which is a limit of the machine as well. -/
def nestingLimit : Nat := 990

/-- Reads a document that fills the text. -/
def read (s : String) : Except JsonError Json := do
  let cs := s.toList
  if cs.head? == some (Char.ofNat 0xFEFF) then
    fail "Unexpected UTF-8 BOM (decode using utf-8-sig)" cs
  let (v, rest) ← readValue cs.length nestingLimit (skipGap cs)
  match skipGap rest with
  | [] => return v
  | rest => fail "Extra data" rest

/-- The wording of an error in a text: the line, column and number of its place. -/
def errorMessage (s : String) : JsonError → String
  | .at what left =>
      let cs := s.toList
      let pos := cs.length - left
      let before := cs.take pos
      let line := before.count '\n' + 1
      let col := (before.reverse.takeWhile (· ≠ '\n')).length + 1
      what ++ s!": line {line} column {col} (char {pos})"
  | .digits n =>
      s!"Exceeds the limit (4300 digits) for integer string conversion: value has {n} digits; "
        ++ "use sys.set_int_max_str_digits() to increase the limit"
  | .tooDeep => "maximum recursion depth exceeded while decoding a JSON object"

def escapeChar (c : Char) : List Char :=
  if c = '"' || c = '\\' then ['\\', c]
  else if c = '\n' then ['\\', 'n']
  else if c = '\r' then ['\\', 'r']
  else if c = '\t' then ['\\', 't']
  else if c.toNat = 8 then ['\\', 'b']
  else if c.toNat = 12 then ['\\', 'f']
  else if 32 ≤ c.toNat && c.toNat < 127 then [c]
  else if c.toNat < 0x10000 then '\\' :: 'u' :: hex 4 c.toNat
  else
    let n := c.toNat - 0x10000
    '\\' :: 'u' :: hex 4 (0xD800 + n / 1024) ++ '\\' :: 'u' :: hex 4 (0xDC00 + n % 1024)

def quote (s : String) : String :=
  String.ofList ('"' :: s.toList.flatMap escapeChar ++ ['"'])

/-- How a document is laid out: on one line, or with every item on a line of its own, indented by so
many blanks per level. -/
inductive Layout where
  | line
  | indented (width : Nat)

/-- What stands before an item, between items, and before the closing bracket, at a level. -/
def Layout.marks (f : Layout) (level : Nat) : String × String × String :=
  match f with
  | .line => ("", ", ", "")
  | .indented w =>
      let gap (n : Nat) := "\n" ++ String.ofList (List.replicate (w * n) ' ')
      (gap (level + 1), "," ++ gap (level + 1), gap level)

def Layout.enclose (f : Layout) (level : Nat) (left right : String) (parts : List String) :
    String :=
  if parts.isEmpty then left ++ right
  else
    let (first, between, last) := f.marks level
    left ++ first ++ String.intercalate between parts ++ last ++ right

mutual

def renderAt (f : Layout) (level : Nat) : Json → String
  | .null => "null"
  | .bool b => if b then "true" else "false"
  | .whole n => wholeText n
  | .real x => written structured x
  | .text s => quote s
  | .list items => f.enclose level "[" "]" (renderItems f (level + 1) items)
  | .fields fs => f.enclose level "\x7b" "\x7d" (renderFields f (level + 1) fs)

def renderItems (f : Layout) (level : Nat) : List Json → List String
  | [] => []
  | v :: vs => renderAt f level v :: renderItems f level vs

def renderFields (f : Layout) (level : Nat) : List (String × Json) → List String
  | [] => []
  | (k, v) :: fs => (quote k ++ ": " ++ renderAt f level v) :: renderFields f level fs

end

def render (f : Layout) (v : Json) : String :=
  renderAt f 0 v

end Json

end ScriptLang
