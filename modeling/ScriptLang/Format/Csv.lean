/-!
# Rows of comma-separated fields

Reading and writing tables as text. A field in quotes may hold commas and line ends, and quotes that
are written twice; a field is quoted when it needs to be.
-/

namespace ScriptLang.Csv

inductive Mode where
  | rowStart
  | fieldStart
  | plain
  | quoted
  /-- after a quote inside a quoted field -/
  | quoteSeen
deriving DecidableEq

/-- A reader: the field, the row and the rows so far, all with the latest first. -/
structure Reader where
  mode : Mode := .rowStart
  field : List Char := []
  row : List String := []
  rows : List (List String) := []

namespace Reader

def endField (r : Reader) : Reader :=
  { r with mode := .fieldStart, field := [], row := String.ofList r.field.reverse :: r.row }

def endRow (r : Reader) : Reader :=
  { mode := .rowStart, rows := r.row.reverse :: r.rows }

def add (r : Reader) (mode : Mode) (c : Char) : Reader :=
  { r with mode, field := c :: r.field }

def step (r : Reader) (c : Char) : Reader :=
  match r.mode with
  | .quoted => if c = '"' then { r with mode := .quoteSeen } else r.add .quoted c
  | .rowStart =>
      if c = '\n' then r.endRow
      else if c = '"' then { r with mode := .quoted }
      else if c = ',' then r.endField
      else r.add .plain c
  | .fieldStart =>
      if c = '\n' then r.endField.endRow
      else if c = '"' then { r with mode := .quoted }
      else if c = ',' then r.endField
      else r.add .plain c
  | .plain =>
      if c = '\n' then r.endField.endRow
      else if c = ',' then r.endField
      else r.add .plain c
  | .quoteSeen =>
      if c = '\n' then r.endField.endRow
      else if c = '"' then r.add .quoted c
      else if c = ',' then r.endField
      else r.add .plain c

/-- Ends the text. -/
def finish (r : Reader) : Reader :=
  match r.mode with
  | .rowStart => r
  | _ => r.endField.endRow

end Reader

/-- The rows of a text; an empty line is a row without fields. -/
def read (s : String) : List (List String) :=
  ((s.toList.foldl Reader.step {}).finish).rows.reverse

def needsQuotes (field : String) : Bool :=
  field.toList.any fun c => c == ',' || c == '"' || c == '\n' || c == '\r'

def inQuotes (field : String) : String :=
  String.ofList
    ('"' :: (field.toList.flatMap fun c => if c = '"' then ['"', '"'] else [c]) ++ ['"'])

def writeField (field : String) : String :=
  if needsQuotes field then inQuotes field else field

/-- A row with its line end; one empty field alone is quoted, or the row would look empty. -/
def writeRow (fields : List String) : String :=
  (if fields = [""] then inQuotes "" else String.intercalate "," (fields.map writeField)) ++ "\r\n"

end ScriptLang.Csv
