import ScriptLang.Files.Tree

/-!
# Paths as texts

Taking path texts apart and putting them together, without looking at any file.
-/

namespace ScriptLang.PathText

/-- Cuts a path after its last slash. -/
def cutLast (cs : List Char) : List Char × List Char :=
  let tail := (cs.reverse.takeWhile (· ≠ '/')).reverse
  (cs.take (cs.length - tail.length), tail)

/-- The directory part without slashes at its end, unless it has nothing else. -/
def trimHead (head : List Char) : List Char :=
  if head.all (· == '/') then head
  else (head.reverse.dropWhile (· == '/')).reverse

def split (path : String) : String × String :=
  let (head, tail) := cutLast path.toList
  (String.ofList (trimHead head), String.ofList tail)

def baseName (path : String) : String :=
  (split path).2

def directoryName (path : String) : String :=
  (split path).1

/-- What follows the last dot of the last name, with the dot. Dots at its start do not count. -/
def extension (path : String) : String :=
  let name := (cutLast path.toList).2
  let body := name.dropWhile (· == '.')
  let ending := body.reverse.takeWhile (· ≠ '.')
  if body.contains '.' then String.ofList ('.' :: ending.reverse) else ""

/-- One path after another: an absolute one starts anew. -/
def join (path next : String) : String :=
  if next.startsWith "/" then next
  else if path.isEmpty || path.endsWith "/" then path ++ next
  else path ++ "/" ++ next

/-- Takes names one by one onto those kept so far, the last one first: two dots drop the name before
them, where there is one to drop. -/
def fold (rooted : Bool) (kept : List String) (name : String) : List String :=
  if name.isEmpty || name == "." then kept
  else if name == ".." then
    match kept with
    | [] => if rooted then [] else [".."]
    | last :: rest => if last == ".." then ".." :: kept else rest
  else name :: kept

/-- A path without dots and double slashes; two slashes at the start stay. -/
def normal (path : String) : String :=
  let slashes := (path.toList.takeWhile (· == '/')).length
  let lead := if slashes = 0 then "" else if slashes = 2 then "//" else "/"
  let names := ((path.splitOn "/").foldl (fold (slashes ≠ 0)) []).reverse
  let text := lead ++ String.intercalate "/" names
  if text.isEmpty then "." else text

def absolute (cwd : Path) (path : String) : String :=
  normal (join cwd.text path)

end ScriptLang.PathText
