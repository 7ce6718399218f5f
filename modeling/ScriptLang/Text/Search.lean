/-!
# Searching, cutting and replacing

Operations on texts as lists of characters. A search looks for the leftmost occurrence, and
repeated operations (counting, splitting, replacing) go on after the end of the last one.
-/

namespace ScriptLang.Text

/-- The rest of `s` after the leading `word`, if it starts with it. -/
def afterPrefix : List Char → List Char → Option (List Char)
  | [], s => some s
  | _ :: _, [] => none
  | c :: word, d :: s => if c = d then afterPrefix word s else none

/-- The text before and after the first occurrence of `word`. -/
def cut (word : List Char) : List Char → Option (List Char × List Char)
  | [] => if word.isEmpty then some ([], []) else none
  | c :: s =>
      match afterPrefix word (c :: s) with
      | some rest => some ([], rest)
      | none => (cut word s).map fun r => (c :: r.1, r.2)

def find (word s : List Char) : Option Nat :=
  (cut word s).map fun r => r.1.length

/-- Splits at every occurrence of the non-empty `word`, at most `limit` times. -/
def splitAtMost (word : List Char) : Nat → List Char → List (List Char)
  | 0, s => [s]
  | n + 1, s =>
      match cut word s with
      | none => [s]
      | some (before, after) => before :: splitAtMost word n after

def splitOn (word s : List Char) : List (List Char) :=
  splitAtMost word (s.length + 1) s

def intercalate (word : List Char) : List (List Char) → List Char
  | [] => []
  | [s] => s
  | s :: rest => s ++ word ++ intercalate word rest

/-- Puts `new` before every character and at the end. -/
def interleave (new : List Char) : List Char → List Char
  | [] => new
  | c :: s => new ++ c :: interleave new s

/-- Replaces every occurrence of `old`; an empty `old` occurs between all characters. -/
def replace (old new s : List Char) : List Char :=
  if old.isEmpty then interleave new s else intercalate new (splitOn old s)

def count (word s : List Char) : Nat :=
  if word.isEmpty then s.length + 1 else (splitOn word s).length - 1

/-- The maximal runs of characters outside the class `p`. `run` is the current one, last character
first. -/
def fieldsFrom (p : Char → Bool) : List Char → List Char → List (List Char)
  | [], [] => []
  | run, [] => [run.reverse]
  | run, c :: s =>
      if p c then
        (if run.isEmpty then fieldsFrom p [] s else run.reverse :: fieldsFrom p [] s)
      else fieldsFrom p (c :: run) s

/-- The fields of a text that characters of the class `p` separate. -/
def fields (p : Char → Bool) (s : List Char) : List (List Char) :=
  fieldsFrom p [] s

def contains (word s : String) : Bool :=
  (cut word.toList s.toList).isSome

def replaceAll (old new s : String) : String :=
  String.ofList (replace old.toList new.toList s.toList)

def split (word s : String) : List String :=
  (splitOn word.toList s.toList).map String.ofList

def padLeft (width : Nat) (fill : Char) (s : String) : String :=
  String.ofList (List.replicate (width - s.length) fill) ++ s

def padRight (width : Nat) (fill : Char) (s : String) : String :=
  s ++ String.ofList (List.replicate (width - s.length) fill)

/-- Pads on both sides to `width` characters. With an odd number of places the extra one goes left
when the width is odd and right otherwise. -/
def padBoth (width : Nat) (fill : Char) (s : String) : String :=
  let places := width - s.length
  let left := places / 2 + (if places % 2 == 1 && width % 2 == 1 then 1 else 0)
  String.ofList (List.replicate left fill) ++ s
    ++ String.ofList (List.replicate (places - left) fill)

end ScriptLang.Text
