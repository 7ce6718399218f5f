import ScriptLang.Number.Decimal
import ScriptLang.Position
import ScriptLang.Program.Parse
import ScriptLang.Token.Scan

/-!
# Reading positions

A position in a source text and a position in a list of tokens, with the moves that scanning and
parsing are made of, one at a time.
-/

namespace ScriptLang

open ScriptLang.Number

structure SourceCursor where
  source : List Char
  place : Place := {}

namespace SourceCursor

def rest (c : SourceCursor) : List Char :=
  c.source.drop c.place.pos

def current (c : SourceCursor) : Option Char :=
  c.rest.head?

/-- The character some places away. Behind the end there is none; a place before the start counts
from the end, and is an error when it goes past the start again. -/
def peek (c : SourceCursor) (offset : Int) : Except Unit (Option Char) :=
  let i := c.place.pos + offset
  if (c.source.length : Int) ≤ i then .ok none
  else
    match place? c.source.length i with
    | some j => .ok c.source[j]?
    | none => .error ()

def pass (c : SourceCursor) (cs : List Char) : SourceCursor :=
  { c with place := c.place.after cs }

def advance (c : SourceCursor) : SourceCursor :=
  c.pass (c.rest.take 1)

/-- The position after the blanks here. -/
def skipLayout (c : SourceCursor) : SourceCursor :=
  c.pass (c.rest.takeWhile isLayout)

/-- The position after the comment here, if there is one. -/
def skipComment (c : SourceCursor) : Option SourceCursor :=
  (splitComment c.rest).map fun r => c.pass r.1

end SourceCursor

/-- A position in the tokens of a source, the last of which marks its end. -/
structure TokenCursor where
  tokens : Array Token
  pos : Nat := 0

namespace TokenCursor

def final (c : TokenCursor) : Token :=
  c.tokens.back?.getD ⟨.finish, 1, 1⟩

/-- The token at the position; the last one behind the end. -/
def current (c : TokenCursor) : Token :=
  c.tokens[c.pos]?.getD c.final

/-- The token some places away: the last one behind the end; a place before the start counts from
the end, and is an error when it goes past the start again. -/
def peek (c : TokenCursor) (offset : Int) : Except Unit Token :=
  let i := c.pos + offset
  if (c.tokens.size : Int) ≤ i then .ok c.final
  else
    match place? c.tokens.size i with
    | some j => .ok (c.tokens[j]?.getD c.final)
    | none => .error ()

def advance (c : TokenCursor) : TokenCursor :=
  { c with pos := c.pos + 1 }

def expect (c : TokenCursor) (want : Kind) : Except ParseError (Token × TokenCursor) :=
  let t := c.current
  if t.kind = want then .ok (t, c.advance) else .error (.expected want t.kind t.line t.col)

end TokenCursor

def Lexeme.shown : Lexeme → String
  | .keyword k => k.spelling
  | .symbol s => s.spelling
  | .whole n => wholeText n
  | .real x => written plain x
  | .text s | .name s | .includes s => s
  | .finish => "None"

/-- A token with its kind, value and place. -/
def Token.shown (t : Token) : String :=
  s!"Token(TokenType.{t.kind.title}, " ++ t.lexeme.shown ++ s!", {t.line}:{t.col})"

end ScriptLang
