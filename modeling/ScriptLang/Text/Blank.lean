import ScriptLang.Text.Letter

/-!
# Blanks and line ends

Which characters are white space, how text is trimmed of it, and where a text breaks into lines.
-/

namespace ScriptLang.Text

/-- The white-space characters: the ASCII controls that move the cursor or separate records, the
space, and the Unicode spaces and separators. -/
def blankRanges : List (Nat × Nat) :=
  [(9, 13), (28, 32), (133, 133), (160, 160), (5760, 5760), (8192, 8202), (8232, 8233),
   (8239, 8239), (8287, 8287), (12288, 12288)]

def isBlank (c : Char) : Bool :=
  inRanges blankRanges c.toNat

/-- Drops the characters of a class from both ends. -/
def trimBy (p : Char → Bool) (cs : List Char) : List Char :=
  ((cs.dropWhile p).reverse.dropWhile p).reverse

def trim (s : String) : String :=
  String.ofList (trimBy isBlank s.toList)

/-- Characters that end a line by themselves. -/
def lineEndRanges : List (Nat × Nat) :=
  [(10, 13), (28, 30), (133, 133), (8232, 8233)]

def isLineEnd (c : Char) : Bool :=
  inRanges lineEndRanges c.toNat

/-- The lines of a text without their ends; a carriage return and the line feed after it are one
end, and an end at the very end of the text opens no further line. `line` is the current line so
far, last character first. -/
def linesFrom : List Char → List Char → List (List Char)
  | [], [] => []
  | line, [] => [line.reverse]
  | line, '\r' :: '\n' :: rest => line.reverse :: linesFrom [] rest
  | line, c :: rest =>
      if isLineEnd c then line.reverse :: linesFrom [] rest else linesFrom (c :: line) rest

def lines (s : String) : List String :=
  (linesFrom [] s.toList).map String.ofList

/-- Reading a file as text turns both other line ends into line feeds. -/
def unifyLineEnds : List Char → List Char
  | [] => []
  | '\r' :: '\n' :: rest => '\n' :: unifyLineEnds rest
  | c :: rest => (if c = '\r' then '\n' else c) :: unifyLineEnds rest

end ScriptLang.Text
