import ScriptLang.Value.Access

/-!
# Text templates

The remainder operator applied to a text fills in a template: `%s`, `%5d`, `%.2f` and the like stand
for the arguments in order, and `%(key)s` for an entry of an object. A directive has flags, a width,
a precision and a conversion character.
-/

namespace ScriptLang

open ScriptLang.Number ScriptLang.Text

structure Directive where
  left : Bool := false
  plus : Bool := false
  blank : Bool := false
  alternate : Bool := false
  zero : Bool := false
  width : Nat := 0
  precision : Option Nat := none

/-- The arguments of a template that are not used yet. -/
structure TemplateArgs where
  /-- arguments still to come -/
  rest : List Value
  /-- the object or array that keys refer to -/
  mapping : Option Value

namespace Directive

/-- Sets the flags at the start of a directive. -/
def flags (d : Directive) : List Char → Directive × List Char
  | '-' :: cs => flags { d with left := true } cs
  | '+' :: cs => flags { d with plus := true } cs
  | ' ' :: cs => flags { d with blank := true } cs
  | '#' :: cs => flags { d with alternate := true } cs
  | '0' :: cs => flags { d with zero := true } cs
  | cs => (d, cs)

/-- Pads text to the width; zeros go between the sign and the digits. -/
def pad (d : Directive) (numeric : Bool) (sign body : String) : String :=
  let gap := d.width - sign.length - body.length
  if d.left then sign ++ body ++ String.ofList (List.replicate gap ' ')
  else if numeric && d.zero then sign ++ String.ofList (List.replicate gap '0') ++ body
  else String.ofList (List.replicate gap ' ') ++ sign ++ body

/-- The sign of a number, as the flags have it. -/
def sign (d : Directive) (negative : Bool) : String :=
  if negative then "-" else if d.plus then "+" else if d.blank then " " else ""

/-- A text, cut to the precision. -/
def ofText (d : Directive) (s : String) : String :=
  let s := match d.precision with
    | some n => String.ofList (s.toList.take n)
    | none => s
  d.pad false "" s

/-- A whole number in base ten, eight or sixteen. -/
def ofWhole (d : Directive) (conversion : Char) (n : Int) : Except Fault String := do
  let digits ←
    if conversion = 'x' || conversion = 'X' then pure (Nat.toDigits 16 n.natAbs)
    else if conversion = 'o' then pure (Nat.toDigits 8 n.natAbs)
    else
      match wholeText? n.natAbs with
      | some s => pure s.toList
      | none => throw .tooManyDigits
  let digits := List.replicate (d.precision.getD 0 - digits.length) '0' ++ digits
  let digits := if conversion = 'X' then digits.map Char.toUpper else digits
  let lead :=
    if d.alternate && (conversion = 'x' || conversion = 'X' || conversion = 'o') then
      String.ofList ['0', conversion]
    else ""
  return d.pad true (d.sign (n < 0) ++ lead) (String.ofList digits)

/-- Puts a point into a number that has none. -/
def withPoint (cs : List Char) : List Char :=
  if cs.contains '.' || cs.any fun c => c.isAlpha && c ≠ 'e' then cs
  else cs.takeWhile (· ≠ 'e') ++ '.' :: cs.dropWhile (· ≠ 'e')

/-- A float with places, with an exponent, or whichever suits it. -/
def ofFloat (d : Directive) (conversion : Char) (x : Float) : String :=
  let precision := d.precision.getD 6
  let kind := conversion.toLower
  let s :=
    if kind = 'f' then fixed precision x
    else if kind = 'e' then scientific precision x
    else general precision d.alternate x
  let cs := s.toList
  let negative := cs.head? == some '-'
  let body := if negative then cs.drop 1 else cs
  let body := if d.alternate then withPoint body else body
  let body := if conversion.isUpper then body.map Char.toUpper else body
  d.pad true (d.sign negative) (String.ofList body)

end Directive

/-- What a number of a directive is called, and the word it has to fit into. -/
structure DirectiveField where
  name : String
  word : String
  bits : Nat

def DirectiveField.width : DirectiveField := ⟨"width", "C ssize_t", 63⟩

def DirectiveField.precision : DirectiveField := ⟨"precision", "C int", 31⟩

/-- A text in quotes with every character outside ASCII escaped. -/
def asciiOnly (s : String) : String :=
  String.ofList (s.toList.flatMap fun c => if c.toNat < 128 then [c] else escapeUnprintable c)

namespace Action

def nextArg (args : TemplateArgs) : Routine (Value × TemplateArgs) :=
  match args.rest with
  | v :: rest => return (v, { args with rest })
  | [] => typeFault "not enough arguments for format string"

/-- Reads a number of a directive: digits, or a star for the next argument. Gives the number, which
a negative argument can make negative, the arguments left and the template left. -/
def directiveNumber (field : DirectiveField) (args : TemplateArgs) (cs : List Char) :
    Routine (Option Int × TemplateArgs × List Char) := do
  match cs with
  | '*' :: rest =>
      let (v, args) ← nextArg args
      match v.whole? with
      | some n =>
          if -(Number.pow2 field.bits : Int) ≤ n && n < (Number.pow2 field.bits : Int) then
            return (some n, args, rest)
          else fail (.other .overflow ("Python int too large to convert to " ++ field.word))
      | none => typeFault "* wants int"
  | _ =>
      let ds := cs.takeWhile Char.isDigit
      let n : Nat := ds.foldl (fun n c => 10 * n + (c.toNat - 48)) 0
      if n < Number.pow2 field.bits then
        return (if ds.isEmpty then none else some n, args, cs.dropWhile Char.isDigit)
      else valueFault (field.name ++ " too big")

/-- The key in parentheses at the start of a directive, whose parentheses may nest. -/
def directiveKey : Nat → List Char → Option (List Char × List Char)
  | _, [] => none
  | depth, c :: cs =>
      if c = ')' then
        match depth with
        | 0 => some ([], cs)
        | d + 1 => (directiveKey d cs).map fun r => (c :: r.1, r.2)
      else (directiveKey (if c = '(' then depth + 1 else depth) cs).map fun r => (c :: r.1, r.2)

/-- The number a numeric directive shows. -/
def directiveWhole (conversion : Char) (v : Value) : Routine Int := do
  let needsWhole := conversion = 'x' || conversion = 'X' || conversion = 'o'
  match v with
  | .float x =>
      if needsWhole then refuse "an integer" else ofExcept (wholeOfFloat x)
  | .nan _ =>
      if needsWhole then refuse "an integer" else ofExcept (wholeOfFloat notANumber)
  | v =>
      match v.whole? with
      | some n => return n
      | none => refuse (if needsWhole then "an integer" else "a real number")
where
  /-- The fault for an argument of another type. -/
  refuse (what : String) : Routine Int :=
    typeFault ("%" ++ String.singleton conversion ++ " format: " ++ what ++ " is required, not "
      ++ v.typeName)

def directiveChar (v : Value) : Routine String :=
  match v with
  | .text s => if s.length = 1 then return s else typeFault "%c requires int or char"
  | v =>
      match v.whole? with
      | none => typeFault "%c requires int or char"
      | some n =>
          if 0 ≤ n && n < 0x110000 then return String.singleton (Char.ofNat n.toNat)
          else fail (.other .overflow "%c arg not in range(0x110000)")

/-- One argument as a directive shows it. -/
def directiveText (d : Directive) (conversion : Char) (index : Nat) (v : Value) :
    Routine String := do
  if conversion = 's' then return d.ofText (← text v)
  else if conversion = 'r' then return d.ofText (← quote v)
  else if conversion = 'a' then return d.ofText (asciiOnly (← quote v))
  else if conversion = 'c' then return d.pad false "" (← directiveChar v)
  else if "diuxXo".toList.contains conversion then
    ofExcept (d.ofWhole conversion (← directiveWhole conversion v))
  else if "eEfFgG".toList.contains conversion then
    return d.ofFloat conversion (← ofExcept v.real)
  else
    let shown := if 31 ≤ conversion.toNat && conversion.toNat ≤ 126 then conversion else '?'
    valueFault ("unsupported format character '" ++ String.singleton shown ++ "' (0x"
      ++ String.ofList (Nat.toDigits 16 conversion.toNat) ++ s!") at index {index}")

/-- The arguments of a directive: those of the template, or the one at the key that the directive
starts with. Gives the template left, too. -/
def directiveArgs (args : TemplateArgs) (cs : List Char) : Routine (TemplateArgs × List Char) := do
  match cs with
  | '(' :: cs =>
      match args.mapping with
      | none => typeFault "format requires a mapping"
      | some m =>
          match directiveKey 0 cs with
          | none => valueFault "incomplete format key"
          | some (key, cs) =>
              let v ← getItem m (.text (String.ofList key))
              return ({ args with rest := [v] }, cs)
  | cs => return (args, cs)

def directivePrecision (d : Directive) (args : TemplateArgs) (cs : List Char) :
    Routine (Directive × TemplateArgs × List Char) := do
  match cs with
  | '.' :: cs =>
      let (precision, args, cs) ← directiveNumber .precision args cs
      return ({ d with precision := some (precision.getD 0).toNat }, args, cs)
  | cs => return (d, args, cs)

/-- The template after the letter for the size of a number, which means nothing. -/
def afterSize : List Char → List Char
  | 'h' :: cs | 'l' :: cs | 'L' :: cs => cs
  | cs => cs

/-- Fills in a template of `total` characters, of which `cs` is still to come. Every round takes at
least one character, so `fuel` need not exceed their number. -/
def fillFrom (total : Nat) : Nat → TemplateArgs → List Char → Routine (String × TemplateArgs)
  | 0, args, _ => return ("", args)
  | fuel + 1, args, cs => do
      let plain := cs.takeWhile (· ≠ '%')
      match cs.dropWhile (· ≠ '%') with
      | [] => return (String.ofList plain, args)
      | _ :: '%' :: cs =>
          let (rest, args) ← fillFrom total fuel args cs
          return (String.ofList plain ++ "%" ++ rest, args)
      | _ :: cs =>
          let (args, cs) ← directiveArgs args cs
          let (d, cs) := Directive.flags {} cs
          let (width, args, cs) ← directiveNumber .width args cs
          let w := width.getD 0
          let d := { d with width := w.natAbs, left := d.left || w < 0 }
          let (d, args, cs) ← directivePrecision d args cs
          match afterSize cs with
          | [] => valueFault "incomplete format"
          | conversion :: cs =>
              let (v, args) ← nextArg args
              checkSize d.width
              let shown ← directiveText d conversion (total - cs.length - 1) v
              let (rest, args) ← fillFrom total fuel args cs
              return (String.ofList plain ++ shown ++ rest, args)

/-- Fills in a template. Several arguments come as a tuple; an object, array or byte string is an
argument that may be left unused. -/
def fill (template : String) (v : Value) : Routine Value := do
  let mapping :=
    match v with
    | .object _ | .array _ | .bytes _ => some v
    | _ => none
  let rest :=
    match v with
    | .tuple xs => xs
    | v => [v]
  let cs := template.toList
  let (s, args) ← fillFrom cs.length (cs.length + 1) { rest, mapping } cs
  if args.rest.isEmpty || mapping.isSome then return .text s
  else typeFault "not all arguments converted during string formatting"

/-- The remainder of two numbers, or a text template filled in. -/
def mod (v w : Value) : Routine Value :=
  match v with
  | .text s => fill s w
  | v =>
      match v.num?, w.num? with
      | some m, some n => do number (← ofExcept (m.mod n))
      | _, _ => fail (.badOperands "%" v.typeName w.typeName)

end Action

end ScriptLang
