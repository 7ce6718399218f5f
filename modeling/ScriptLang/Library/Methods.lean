import ScriptLang.Library.Texts

/-!
# Methods of texts, arrays, tuples and numbers

The members that plain values have by themselves, and what they do when they are called.
-/

namespace ScriptLang.Library

open ScriptLang.Action ScriptLang.Number

def textMethods : List String :=
  ["upper", "lower", "title", "capitalize", "swapcase", "strip", "lstrip", "rstrip", "split",
   "splitlines", "join", "replace", "find", "index", "count", "startswith", "endswith", "isalpha",
   "isdigit", "isalnum", "isspace", "zfill", "center", "ljust", "rjust"]

def arrayMethods : List String :=
  ["append", "extend", "insert", "pop", "remove", "index", "count", "sort", "reverse", "copy",
   "clear"]

def tupleMethods : List String := ["index", "count"]

/-- The fault of a method that takes no arguments. -/
def noArguments (owner name : String) (args : List Value) : Routine Unit :=
  if args.isEmpty then pure ()
  else typeFault (owner ++ "." ++ name ++ s!"() takes no arguments ({args.length} given)")

def oneArgument (owner name : String) (args : List Value) : Routine Value :=
  match args with
  | [v] => return v
  | _ => typeFault (owner ++ "." ++ name ++ s!"() takes exactly one argument ({args.length} given)")

def argumentCount (n : Nat) : String :=
  s!"{n} argument" ++ (if n = 1 then "" else "s")

/-- Refuses a number of arguments outside the given bounds. -/
def argumentRange (name : String) (least most : Nat) (args : List Value) : Routine Unit :=
  let n := args.length
  if least = most && n ≠ least then
    typeFault (name ++ " expected " ++ argumentCount least ++ s!", got {n}")
  else if n < least then
    typeFault (name ++ " expected at least " ++ argumentCount least ++ s!", got {n}")
  else if most < n then
    typeFault (name ++ " expected at most " ++ argumentCount most ++ s!", got {n}")
  else pure ()

/-- The part of a text that optional bounds leave, and the place where it starts. -/
def bounded (s : String) (args : List Value) : Routine (List Char × Nat) := do
  let cs := s.toList
  let start ← ofExcept (args.getD 0 .null).sliceIndex
  let stop ← ofExcept (args.getD 1 .null).sliceIndex
  let i := sliceBound cs.length (start.getD 0)
  let j := sliceBound cs.length (stop.getD cs.length)
  return ((cs.take j).drop i, i)

/-- The place of a text in another between optional bounds. -/
def findIn (name : String) (s : String) (args : List Value) : Routine (Option Nat) := do
  match args with
  | [] => typeFault (name ++ "() takes at least 1 argument (0 given)")
  | .text t :: rest =>
      let (cs, i) ← bounded s rest
      return (Text.find t.toList cs).map (· + i)
  | v :: _ => typeFault ("must be str, not " ++ v.typeName)

/-- The characters that are stripped from the ends of a text. -/
def stripped (name : String) (args : List Value) : Routine (Char → Bool) := do
  argumentRange name 0 1 args
  match args.getD 0 .null with
  | .null => return Text.isBlank
  | .text t => return fun c => t.toList.contains c
  | _ => typeFault (name ++ " arg must be None or str")

/-- The pieces of a text between white space, at most `limit` cuts; what is left keeps its blanks
except those at its start. -/
def fieldsAtMost : Nat → List Char → List (List Char)
  | 0, cs =>
      let rest := cs.dropWhile Text.isBlank
      if rest.isEmpty then [] else [(rest.reverse.dropWhile Text.isBlank).reverse]
  | n + 1, cs =>
      match cs.dropWhile Text.isBlank with
      | [] => []
      | rest =>
          rest.takeWhile (!Text.isBlank ·) :: fieldsAtMost n (rest.dropWhile (!Text.isBlank ·))

/-- The pieces of a text, with an optional separator and number of cuts. -/
def splitMethod (s : String) (args : List Value) : Routine Value := do
  if 2 < args.length then typeFault s!"split() takes at most 2 arguments ({args.length} given)"
  else
    let limit ← ofExcept (args.getD 1 (.int (-1))).integer
    if limit < 0 then
      arrayOf ((← splitText s (args.getD 0 .null)).map Value.text)
    else
      let parts ←
        match args.getD 0 .null with
        | .null => pure (fieldsAtMost limit.toNat s.toList)
        | .text sep =>
            if sep.isEmpty then valueFault "empty separator"
            else pure (Text.splitAtMost sep.toList limit.toNat s.toList)
        | v => typeFault ("must be str or None, not " ++ v.typeName)
      arrayOf (parts.map fun p => .text (String.ofList p))

def textItem (p : Nat × Value) : Routine String :=
  match p.2 with
  | .text t => return t
  | x => typeFault (s!"sequence item {p.1}: expected str instance, " ++ x.typeName ++ " found")

/-- Texts joined by another; an item that is no text is a fault. -/
def joinTexts (sep : String) (v : Value) : Routine Value := do
  match v with
  | .text _ | .bytes _ | .tuple _ | .array _ | .object _ =>
      let xs ← iterate v
      let parts ← ((List.range xs.length).zip xs).mapM textItem
      return .text (String.intercalate sep parts)
  | _ => typeFault "can only join an iterable"

/-- Replaces at most `limit` occurrences; an empty text occurs between all characters. -/
def replaceAtMost (old new : List Char) (limit : Nat) (s : List Char) : List Char :=
  if old.isEmpty then
    let n := min limit (s.length + 1)
    ((s.take n).flatMap fun c => new ++ [c]) ++ (if s.length < n then new else []) ++ s.drop n
  else Text.intercalate new (Text.splitAtMost old limit s)

/-- A text with zeros between its sign and its other characters, up to a width. -/
def zeroFilled (width : Nat) (s : String) : String :=
  let cs := s.toList
  let zeros := List.replicate (width - cs.length) '0'
  match cs with
  | c :: rest =>
      if c = '-' || c = '+' then String.ofList (c :: zeros ++ rest)
      else String.ofList (zeros ++ cs)
  | [] => String.ofList zeros

/-- Whether a text is not empty and all its characters are of a class. -/
def allOf (p : Char → Bool) (s : String) : Bool :=
  !s.isEmpty && s.toList.all p

/-- Pads a text by one of the padding functions, with an optional fill character. -/
def padMethod (name : String) (pad : Nat → Char → String → String) (s : String)
    (args : List Value) : Routine Value := do
  argumentRange name 1 2 args
  padWith pad (.text s) (args.getD 0 .null) (args.getD 1 (.text " "))

/-- The lines of a text with their ends. -/
def linesKept : List Char → List Char → List (List Char)
  | [], [] => []
  | line, [] => [line.reverse]
  | line, '\r' :: '\n' :: rest => ('\n' :: '\r' :: line).reverse :: linesKept [] rest
  | line, c :: rest =>
      if Text.isLineEnd c then (c :: line).reverse :: linesKept [] rest
      else linesKept (c :: line) rest

def callTextMethod (s name : String) (args : List Value) : Routine Value := do
  let plain (f : String → String) : Routine Value := do
    noArguments "str" name args
    return .text (f s)
  let test (p : Char → Bool) : Routine Value := do
    noArguments "str" name args
    return .bool (allOf p s)
  match name with
  | "upper" => plain Text.upper
  | "lower" => plain Text.lower
  | "title" => plain Text.titleCase
  | "capitalize" => plain Text.capitalize
  | "swapcase" => plain Text.swapCase
  | "strip" =>
      let p ← stripped name args
      return .text (String.ofList (Text.trimBy p s.toList))
  | "lstrip" =>
      let p ← stripped name args
      return .text (String.ofList (s.toList.dropWhile p))
  | "rstrip" =>
      let p ← stripped name args
      return .text (String.ofList (s.toList.reverse.dropWhile p).reverse)
  | "split" => splitMethod s args
  | "splitlines" =>
      if 1 < args.length then
        typeFault s!"splitlines() takes at most 1 argument ({args.length} given)"
      else if ← truthy (args.getD 0 .null) then
        arrayOf ((linesKept [] s.toList).map fun l => .text (String.ofList l))
      else arrayOf ((Text.lines s).map Value.text)
  | "join" => joinTexts s (← oneArgument "str" name args)
  | "replace" =>
      argumentRange name 2 3 args
      let limit ← ofExcept (args.getD 2 (.int (-1))).integer
      match args with
      | .text old :: .text new :: _ =>
          if limit < 0 then return .text (Text.replaceAll old new s)
          else
            return .text
              (String.ofList (replaceAtMost old.toList new.toList limit.toNat s.toList))
      | old :: new :: _ => replaceText s old new
      | _ => return .null
  | "find" =>
      match ← findIn name s args with
      | some i => return .int i
      | none => return .int (-1)
  | "index" =>
      match ← findIn name s args with
      | some i => return .int i
      | none => valueFault "substring not found"
  | "count" =>
      match args with
      | [] => typeFault "count() takes at least 1 argument (0 given)"
      | word :: rest =>
          let (cs, _) ← bounded s rest
          countIn (String.ofList cs) word
  | "startswith" =>
      match args with
      | [] => typeFault "startswith() takes at least 1 argument (0 given)"
      | affix :: rest =>
          let (cs, _) ← bounded s rest
          return .bool (← startsWith (String.ofList cs) affix)
  | "endswith" =>
      match args with
      | [] => typeFault "endswith() takes at least 1 argument (0 given)"
      | affix :: rest =>
          let (cs, _) ← bounded s rest
          return .bool (← endsWith (String.ofList cs) affix)
  | "isalpha" => test Text.isLetter
  | "isdigit" => test Text.isDigit
  | "isalnum" => test Text.isAlphanumeric
  | "isspace" => test Text.isBlank
  | "zfill" =>
      let width ← sizedInteger (← oneArgument "str" name args)
      checkSize width.toNat
      return .text (zeroFilled width.toNat s)
  | "center" => padMethod name Text.padBoth s args
  | "ljust" => padMethod name Text.padRight s args
  | "rjust" => padMethod name Text.padLeft s args
  | _ => return .null

/-- A bound of a part of that many items. -/
def partBound (length : Nat) (v : Value) : Routine Nat :=
  match v.whole? with
  | some n => return sliceBound length n
  | none => typeFault "slice indices must be integers or have an __index__ method"

/-- The place of a value among items, between optional bounds. -/
def indexMethod (xs : List Value) (args : List Value) : Routine (Option Nat) := do
  argumentRange "index" 1 3 args
  let i ← partBound xs.length (args.getD 1 (.int 0))
  let j ← partBound xs.length (args.getD 2 (.int xs.length))
  let found ← ofExcept (indexFrom (← heap) (args.getD 0 .null) ((xs.take j).drop i) i)
  return found

def countItems (xs : List Value) (v : Value) : Routine Value := do
  let s ← heap
  let n ← ofExcept (xs.foldlM (fun (n : Nat) x => do
    if ← s.equal valueDepth x v then return n + 1 else return n) 0)
  return .int n

def callArrayMethod (l : Loc) (name : String) (args : List Value) : Routine Value := do
  match name with
  | "append" =>
      let v ← oneArgument "list" name args
      modifyItems l (·.push v)
      return .null
  | "extend" =>
      let v ← oneArgument "list" name args
      let xs ← iterate v
      modifyItems l (· ++ xs.toArray)
      return .null
  | "insert" =>
      argumentRange name 2 2 args
      let i ← sizedInteger (args.getD 0 .null)
      modifyItems l fun xs => xs.insertIdxIfInBounds (sliceBound xs.size i) (args.getD 1 .null)
      return .null
  | "pop" =>
      argumentRange name 0 1 args
      let i ← sizedInteger (args.getD 0 (.int (-1)))
      let xs ← items l
      if xs.isEmpty then fail (.other .index "pop from empty list")
      else
        match place? xs.size i with
        | none => fail (.other .index "pop index out of range")
        | some j =>
            setItems l (xs.eraseIdxIfInBounds j)
            return xs.getD j .null
  | "remove" =>
      let v ← oneArgument "list" name args
      let xs ← items l
      match ← ofExcept (indexFrom (← heap) v xs.toList 0) with
      | none => valueFault "list.remove(x): x not in list"
      | some i =>
          setItems l (xs.eraseIdxIfInBounds i)
          return .null
  | "index" =>
      match ← indexMethod (← items l).toList args with
      | some i => return .int i
      | none => valueFault ((← quote (args.getD 0 .null)) ++ " is not in list")
  | "count" =>
      let v ← oneArgument "list" name args
      countItems (← items l).toList v
  | "sort" =>
      if args.isEmpty then
        let xs ← sorted (← items l).toList
        setItems l xs.toArray
        return .null
      else typeFault "sort() takes no positional arguments"
  | "reverse" =>
      noArguments "list" name args
      modifyItems l Array.reverse
      return .null
  | "copy" =>
      noArguments "list" name args
      newArray (← items l)
  | "clear" =>
      noArguments "list" name args
      setItems l #[]
      return .null
  | _ => return .null

def callTupleMethod (xs : List Value) (name : String) (args : List Value) : Routine Value := do
  match name with
  | "index" =>
      match ← indexMethod xs args with
      | some i => return .int i
      | none => valueFault "tuple.index(x): x not in tuple"
  | _ => countItems xs (← oneArgument "tuple" name args)

/-- The binary digits that a number needs. -/
def bitLength (n : Int) : Nat :=
  if n = 0 then 0 else n.natAbs.log2 + 1

def callMethodOf (receiver : Value) (name : String) (args : List Value) : Routine Value := do
  match receiver with
  | .text s => callTextMethod s name args
  | .array l => callArrayMethod l name args
  | .tuple xs => callTupleMethod xs name args
  | .nan _ =>
      noArguments "float" name args
      return .bool false
  | .float x =>
      noArguments "float" name args
      return .bool (isWhole x)
  | v =>
      noArguments "int" name args
      return .int (bitLength (v.whole?.getD 0))

/-- Members of texts that the language does not describe. -/
def hostTextMembers : List String :=
  ["casefold", "encode", "expandtabs", "format", "format_map", "isascii", "isdecimal",
   "isidentifier", "islower", "isnumeric", "isprintable", "istitle", "isupper", "maketrans",
   "partition", "removeprefix", "removesuffix", "rfind", "rindex", "rpartition", "rsplit",
   "translate"]

/-- Members of numbers that the language does not describe. -/
def hostNumberMembers : List String :=
  ["as_integer_ratio", "bit_count", "conjugate", "denominator", "from_bytes", "fromhex", "hex",
   "imag", "is_integer", "numerator", "to_bytes"]

/-- The member that a plain value has by itself. -/
def plainMember? (v : Value) (name : String) : Option Value :=
  let method (names : List String) : Option Value :=
    if names.contains name then some (.bound v name) else none
  match v with
  | .text _ => method textMethods
  | .array _ => method arrayMethods
  | .tuple _ => method tupleMethods
  | .float _ | .nan _ => if name == "real" then some v else method ["is_integer"]
  | .int _ | .bool _ =>
      if name == "real" then some (.int (v.whole?.getD 0)) else method ["bit_length"]
  | _ => none

end ScriptLang.Library
