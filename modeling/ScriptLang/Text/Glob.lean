/-!
# Name patterns

Patterns that names of files are matched against: a star stands for any characters, a question mark
for one, and brackets for one of the characters or ranges between them.
-/

namespace ScriptLang.Text

inductive GlobPart where
  | anything
  | anyChar
  /-- a character in one of the ranges, or in none of them when `negated` -/
  | among (negated : Bool) (ranges : List (Char × Char))
  | exactly (c : Char)
deriving DecidableEq

/-- The ranges that the characters between brackets stand for. -/
def bracketRanges : List Char → List (Char × Char)
  | [] => []
  | a :: '-' :: b :: rest => if a ≤ b then (a, b) :: bracketRanges rest else bracketRanges rest
  | a :: rest => (a, a) :: bracketRanges rest

/-- What stands between an opening bracket and the closing one, and the rest: a closing bracket that
comes first, or right after an exclamation mark, does not close. -/
def bracketBody (cs : List Char) : Option (List Char × List Char) :=
  let (head, tail) :=
    match cs with
    | '!' :: ']' :: rest => (['!', ']'], rest)
    | '!' :: rest => (['!'], rest)
    | ']' :: rest => ([']'], rest)
    | rest => ([], rest)
  match tail.dropWhile (· ≠ ']') with
  | [] => none
  | _ :: rest => some (head ++ tail.takeWhile (· ≠ ']'), rest)

/-- The part that the text between brackets stands for. -/
def bracketPart (body : List Char) : GlobPart :=
  match body with
  | '!' :: rest => .among true (bracketRanges rest)
  | rest => .among false (bracketRanges rest)

/-- The parts of a pattern, read in at most `fuel` steps. -/
def globPartsFrom : Nat → List Char → List GlobPart
  | 0, _ => []
  | _ + 1, [] => []
  | n + 1, '*' :: cs => .anything :: globPartsFrom n cs
  | n + 1, '?' :: cs => .anyChar :: globPartsFrom n cs
  | n + 1, '[' :: cs =>
      match bracketBody cs with
      | some (body, rest) => bracketPart body :: globPartsFrom n rest
      | none => .exactly '[' :: globPartsFrom n cs
  | n + 1, c :: cs => .exactly c :: globPartsFrom n cs

def globParts (pattern : String) : List GlobPart :=
  globPartsFrom pattern.length pattern.toList

/-- The ends of a list, the longest first. -/
def suffixes {α : Type} : List α → List (List α)
  | [] => [[]]
  | x :: xs => (x :: xs) :: suffixes xs

def matchesParts : List GlobPart → List Char → Bool
  | [], cs => cs.isEmpty
  | .anything :: ps, cs => (suffixes cs).any (matchesParts ps)
  | .anyChar :: ps, cs =>
      match cs with
      | [] => false
      | _ :: rest => matchesParts ps rest
  | .among negated ranges :: ps, cs =>
      match cs with
      | [] => false
      | c :: rest =>
          (ranges.any fun r => r.1 ≤ c && c ≤ r.2) != negated && matchesParts ps rest
  | .exactly x :: ps, cs =>
      match cs with
      | [] => false
      | c :: rest => c == x && matchesParts ps rest

def matchesGlob (pattern name : String) : Bool :=
  matchesParts (globParts pattern) name.toList

/-- Whether a text has characters that make it a pattern. -/
def isPattern (s : String) : Bool :=
  s.toList.any fun c => c == '*' || c == '?' || c == '['

end ScriptLang.Text
