import ScriptLang.Library.Arrays
import ScriptLang.Text.Case

/-!
# Functions on texts

Each takes the text of its first argument, whatever that is.
-/

namespace ScriptLang.Library

open ScriptLang.Action

def onText (f : String → String) (v : Value) : Routine Value := do
  return .text (f (← text v))

def reversed (s : String) : String :=
  String.ofList s.toList.reverse

def capitalizeFirst (s : String) : String :=
  match s.toList with
  | [] => s
  | c :: cs => String.ofList (Text.upperChar c ++ cs)

/-- Lower case with hyphens in place of spaces. -/
def slug (s : String) : String :=
  String.ofList ((Text.lower s).toList.map fun c => if c = ' ' then '-' else c)

/-- The pieces of a text between separators; null separates at white space. -/
def splitText (s : String) (separator : Value) : Routine (List String) :=
  match separator with
  | .null => return (Text.fields Text.isBlank s.toList).map String.ofList
  | .text sep => if sep.isEmpty then valueFault "empty separator" else return Text.split sep s
  | v => typeFault ("must be str or None, not " ++ v.typeName)

def split (v separator : Value) : Routine Value := do
  let parts ← splitText (← text v) separator
  arrayOf (parts.map Value.text)

def replaceText (s : String) (old new : Value) : Routine Value :=
  match old, new with
  | .text o, .text n => return .text (Text.replaceAll o n s)
  | .text _, n => typeFault ("replace() argument 2 must be str, not " ++ n.argumentType)
  | o, _ => typeFault ("replace() argument 1 must be str, not " ++ o.argumentType)

/-- Whether one of the given texts stands at an end of the text: `test` decides for one. -/
def hasAffix (word : String) (test : String → Bool) (affix : Value) : Routine Bool :=
  match affix with
  | .text t => return test t
  | .tuple ts => any ts
  | v => typeFault (word ++ " first arg must be str or a tuple of str, not " ++ v.typeName)
where
  /-- The first of several that fits. -/
  any : List Value → Routine Bool
    | [] => return false
    | .text t :: ts => if test t then return true else any ts
    | v :: _ => typeFault ("tuple for " ++ word ++ " must only contain str, not " ++ v.typeName)

def startsWith (s : String) (affix : Value) : Routine Bool :=
  hasAffix "startswith" (fun t => t.toList.isPrefixOf s.toList) affix

def endsWith (s : String) (affix : Value) : Routine Bool :=
  hasAffix "endswith" (fun t => t.toList.isSuffixOf s.toList) affix

def charAt (v index : Value) : Routine Value := do
  let s ← text v
  let i ← toInt index
  let cs := s.toList
  match place? cs.length i with
  | some j => return .text (String.ofList ((cs.drop j).take 1))
  | none => return .text ""

def countIn (s : String) (word : Value) : Routine Value :=
  match word with
  | .text t => return .int (Text.count t.toList s.toList)
  | v => typeFault ("must be str, not " ++ v.typeName)

/-- The width and the character that a text is padded to and with. -/
def padding (width fill : Value) : Routine (Nat × Char) := do
  let n ← sizedInteger width
  match fill with
  | .text s =>
      match s.toList with
      | [c] => return (n.toNat, c)
      | _ => typeFault "The fill character must be exactly one character long"
  | v => typeFault ("The fill character must be a unicode character, not " ++ v.typeName)

def padWith (pad : Nat → Char → String → String) (v width fill : Value) : Routine Value := do
  let s ← text v
  let (n, c) ← padding width fill
  checkSize n
  return .text (pad n c s)

/-- The text cut to a length, with a suffix if anything was cut. -/
def truncate (v limit suffix : Value) : Routine Value := do
  let s ← text v
  if ← ordered .le (.int s.length) limit then return .text s
  else
    let stop ← ofExcept limit.sliceIndex
    let head ← Action.slice (.text s) none stop
    add.plus head suffix

end ScriptLang.Library
