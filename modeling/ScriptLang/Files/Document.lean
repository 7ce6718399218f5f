import ScriptLang.Files.Access
import ScriptLang.Value.Document

/-!
# Documents in files

Values kept in files as JSON, with every item on a line of its own.
-/

namespace ScriptLang.Action

/-- Writes a value to a file. What comes before a part that has no document is written all the
same. -/
def writeJson (path v : Value) : Routine Unit :=
  writeThrough path (jsonPart (.indented 2) v)

def readJsonFile (path : Value) : Routine Value := do
  readJson (← readText (← openPath path))

end ScriptLang.Action
