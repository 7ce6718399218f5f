import ScriptLang.World

/-!
# Values as text

How values print. Texts print as they are on their own and in quotes inside containers; a container
met again inside itself prints as an ellipsis. Things without a readable form print their kind and
an address, which tells two of them apart.
-/

namespace ScriptLang

open ScriptLang.Text ScriptLang.Number

def addressText (n : Nat) : String :=
  " at 0x" ++ String.ofList (hex 12 (139637976727552 + 16 * n))

def Derived.qualifiedName : Derived → String
  | .method .. | .staticMethod .. => "Interpreter.eval.<locals>.<lambda>"
  | .memoized .. => "memoize.<locals>.memoized"
  | .curried .. => "curry.<locals>.curried"
  | .applied .. => "curry.<locals>.curried.<locals>.<lambda>"
  | .composed _ => "compose.<locals>.composed"
  | .piped _ => "pipe.<locals>.piped"
  | .constant _ => "constant.<locals>.<lambda>"
  | .negated _ => "negate.<locals>.<lambda>"
  | .once .. => "once.<locals>.wrapper"
  | .debounced .. => "debounce.<locals>.debounced"
  | .throttled .. => "throttle.<locals>.throttled"
  | .clickHandler _ => "onClick.<locals>.handler"

/-- The name of a derived function: the last part of its qualified name. -/
def Derived.name (d : Derived) : String :=
  ((d.qualifiedName.splitOn ".").getLast?).getD ""

/-- The text of a package object. -/
def Handle.shown : Handle → String
  | .database n => "<src.runtime.zendb.ZenDB object" ++ addressText (1000000 + n) ++ ">"
  | .query n => "<src.runtime.zendb.Query object" ++ addressText (2000000 + n) ++ ">"
  | .app n => "<src.runtime.zenwares.App object" ++ addressText (3000000 + n) ++ ">"
  | .listener n => "<FakeServer object" ++ addressText (4000000 + n) ++ ">"
  | .server n => "<src.runtime.zenhttp.ZenHTTPServer object" ++ addressText (5000000 + n) ++ ">"
  | .handler => "<src.runtime.zenhttp.ZenHTTPHandler object" ++ addressText 6000000 ++ ">"
  | .widget kind n => "<" ++ kind.name ++ " object" ++ addressText (7000000 + n) ++ ">"
  | .scope n => "<src.interpreter.Environment object" ++ addressText (8000000 + n) ++ ">"
  | .body n => "<src.ast.Block object" ++ addressText (9000000 + n) ++ ">"
  | .interpreter => "<src.interpreter.Interpreter object" ++ addressText 10000000 ++ ">"

/-- The name of a kind of object with its package. -/
def Maker.shown (m : Maker) : String :=
  "<class 'src.runtime." ++ m.package.shownName ++ "." ++ m.name ++ "'>"

/-- Items in brackets, with commas between them. -/
def bracketed (left right : String) (parts : List String) : String :=
  left ++ String.intercalate ", " parts ++ right

/-- The text of a value inside containers; `seen` are the containers around it, and `depth` bounds
how many more may be nested in it. -/
def Setting.quote (w : Setting) : Nat → List Loc → Value → Except Fault String
  | 0, _, _ => .error .tooDeep
  | d + 1, seen, v =>
      match v with
      | .null => .ok "None"
      | .bool b => .ok (if b then "True" else "False")
      | .int n =>
          match wholeText? n with
          | some s => .ok s
          | none => .error .tooManyDigits
      | .float x => .ok (written plain x)
      | .nan _ => .ok plain.nan
      | .text s => .ok (quoted s)
      | .bytes b => .ok (quotedBytes b)
      | .tuple [x] => do return "(" ++ (← w.quote d seen x) ++ ",)"
      | .tuple xs => do return bracketed "(" ")" (← xs.mapM (w.quote d seen))
      | .array l =>
          if seen.contains l then .ok "[...]"
          else do
            return bracketed "[" "]" (← (w.heap.items l).toList.mapM (w.quote d (l :: seen)))
      | .object l =>
          if seen.contains l then .ok "\x7b...\x7d"
          else do
            let parts ← (w.heap.entries l).mapM fun e => do
              return (← w.quote d (l :: seen) e.1) ++ ": " ++ (← w.quote d (l :: seen) e.2)
            return bracketed "\x7b" "\x7d" parts
      | .instance l =>
          .ok ("<" ++ w.heap.classNameAt l ++ " instance>")
      | .class l => .ok ("<src.class_runtime.ZenClass object" ++ addressText l ++ ">")
      | .function l => .ok ("<src.interpreter.ZenFunction object" ++ addressText l ++ ">")
      | .derived l =>
          .ok ("<function " ++ ((w.heap.derivedAt? l).map Derived.qualifiedName).getD ""
            ++ addressText l ++ ">")
      | .native (.make m) => .ok m.shown
      | .native f => .ok ("<function " ++ f.name ++ addressText 0 ++ ">")
      | .bound (.handle h) name =>
          .ok ("<bound method " ++ h.typeName ++ "." ++ name ++ " of " ++ h.shown ++ ">")
      | .bound receiver name =>
          .ok ("<built-in method " ++ name ++ " of " ++ receiver.typeName ++ " object"
            ++ addressText 0 ++ ">")
      | .package p =>
          .ok ("<module 'src.runtime." ++ p.shownName ++ "' from '" ++ w.installDir ++ "/runtime/"
            ++ p.shownName ++ ".py'>")
      | .handle h => .ok h.shown

/-- How deep values may nest when they are printed, compared or copied. -/
def valueDepth : Nat := 900

def Setting.text (w : Setting) : Value → Except Fault String
  | .text s => .ok s
  | v => w.quote valueDepth [] v

namespace Action

def text (v : Value) : Routine String := do
  ofExcept ((← get).text v)

/-- The text of a value inside containers. -/
def quote (v : Value) : Routine String := do
  ofExcept ((← get).quote valueDepth [] v)

/-- Prints values with spaces between them, and a line end. -/
def printValues : List Value → Routine Unit
  | [] => print "\n"
  | [v] => do
      print (← text v)
      print "\n"
  | v :: vs => do
      print (← text v)
      print " "
      printValues vs

end Action

/-- The text of a signal that a package reports as a failure. -/
def Signal.message (w : World) : Signal → String
  | .break | .continue => ""
  | .return v => (w.text v).toOption.getD ""
  | .fault f => f.message
  | .exit _ => ""
  | .interrupt => ""
  | .foreign _ => ""

end ScriptLang
