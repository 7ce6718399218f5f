import ScriptLang.Program
import ScriptLang.Token

/-!
# From tokens to programs

A recursive-descent reading of the grammar. Assignment binds weakest and to the right, then the
six levels of binary operators, all to the left, then the unary operators, then calls, members and
indices. Commas between list items may be left out or trail.

Every grammar rule takes the number of rules that may still be nested inside it; a program that
needs more is refused as too deep. Repetitions take at most `rounds` rounds, which the number of
tokens bounds, since every round takes at least one.
-/

namespace ScriptLang

/-- Why tokens are not a program. -/
inductive ParseError where
  /-- another kind of token was required here -/
  | expected (want got : Kind) (line col : Nat)
  /-- no expression starts with this token -/
  | unexpected (got : Kind) (line col : Nat)
  /-- the left side of an assignment is not a name, member or index -/
  | badTarget
  /-- the nesting limit is reached -/
  | tooDeep
deriving DecidableEq, Repr

/-- A parser reads from the front of the remaining tokens. -/
abbrev Parser := StateT (List Token) (Except ParseError)

namespace Parser

/-- The next token; the end of the source when none is left. -/
def current : Parser Token := do
  return (← get).headD ⟨.finish, 1, 1⟩

def advance : Parser Unit :=
  modify List.tail

def expect (want : Kind) : Parser Token := do
  let t ← current
  if t.kind = want then
    advance
    return t
  else throw (.expected want t.kind t.line t.col)

def symbol (s : Symbol) : Parser Unit := do
  discard <| expect (.symbol s)

def keyword (k : Keyword) : Parser Unit := do
  discard <| expect (.keyword k)

def name : Parser String := do
  match (← expect .name).lexeme with
  | .name s => return s
  | _ => return ""

def sees (k : Kind) : Parser Bool := do
  return (← current).kind = k

/-- Passes over the next token if it is of the given kind, and says whether it was. -/
def accept (k : Kind) : Parser Bool := do
  if ← sees k then
    advance
    return true
  else return false

/-- Items up to a token of the kind `stop`, which is left in place. -/
def itemsUntil {α : Type} (stop : Kind) (item : Parser α) : Nat → Parser (List α)
  | 0 => pure []
  | n + 1 => do
      if ← sees stop then return []
      else
        let x ← item
        let xs ← itemsUntil stop item n
        return x :: xs

/-- An item and the comma that may follow it. -/
def withComma {α : Type} (item : Parser α) : Parser α := do
  let x ← item
  discard <| accept (.symbol .comma)
  return x

/-- Items with optional commas and the symbol that closes them. -/
def listUntil {α : Type} (rounds : Nat) (close : Symbol) (item : Parser α) : Parser (List α) := do
  let xs ← itemsUntil (.symbol close) (withComma item) rounds
  symbol close
  return xs

/-- Statements up to a token of the kind `stop`; empty ones leave no trace. -/
def statementsUntil (rounds : Nat) (stop : Kind) (statement : Parser (Option Stmt)) :
    Parser (List Stmt) := do
  return (← itemsUntil stop statement rounds).filterMap id

end Parser

def BinaryOp.ofSymbol? : Symbol → Option BinaryOp
  | .or => some .or
  | .and => some .and
  | .eq => some .eq
  | .neq => some .ne
  | .lt => some .lt
  | .gt => some .gt
  | .lte => some .le
  | .gte => some .ge
  | .plus => some .add
  | .minus => some .sub
  | .multiply => some .mul
  | .divide => some .div
  | .modulo => some .mod
  | _ => none

/-- How tightly an operator binds, from zero for the loosest. -/
def BinaryOp.level : BinaryOp → Nat
  | .or => 0
  | .and => 1
  | .eq | .ne => 2
  | .lt | .gt | .le | .ge => 3
  | .add | .sub => 4
  | .mul | .div | .mod => 5

/-- The level of the tightest binary operators. -/
def BinaryOp.lastLevel : Nat := 5

def BinaryOp.atLevel? (level : Nat) : Lexeme → Option BinaryOp
  | .symbol s => (BinaryOp.ofSymbol? s).filter (·.level == level)
  | _ => none

def UnaryOp.ofLexeme? : Lexeme → Option UnaryOp
  | .symbol .minus => some .neg
  | .symbol .not => some .not
  | _ => none

def Access.ofLexeme? : Lexeme → Option Access
  | .keyword .publicWord => some .everyone
  | .keyword .privateWord => some .ownClass
  | .keyword .protectedWord => some .family
  | _ => none

/-- Sets the value of a field: a repeated name keeps its first place and its last value. -/
def putField {α : Type} (name : String) (value : α) : List (String × α) → List (String × α)
  | [] => [(name, value)]
  | f :: fs => if f.1 = name then (name, value) :: fs else f :: putField name value fs

namespace Parser

/-- Further operands of a level after the first, grouped to the left. -/
def chain (operand : Parser Expr) (level : Nat) : Nat → Expr → Parser Expr
  | 0, left => pure left
  | n + 1, left => do
      match BinaryOp.atLevel? level (← current).lexeme with
      | none => return left
      | some op =>
          advance
          let right ← operand
          chain operand level n (.binary op left right)

/-- Members, calls and indices after an expression. -/
def suffixes (rounds : Nat) (expression : Parser Expr) : Nat → Expr → Parser Expr
  | 0, e => pure e
  | n + 1, e => do
      if ← accept (.symbol .dot) then
        suffixes rounds expression n (.member e (← name))
      else if ← accept (.symbol .lparen) then
        suffixes rounds expression n (.call e (← listUntil rounds .rparen expression))
      else if ← accept (.symbol .lbracket) then
        let i ← expression
        symbol .rbracket
        suffixes rounds expression n (.index e i)
      else return e

def parameters (rounds : Nat) : Parser (List String) := do
  symbol .lparen
  listUntil rounds .rparen name

/-- An expression that is there unless the given symbol comes next. -/
def optional (expression : Parser Expr) (stop : Symbol) : Parser (Option Expr) := do
  if ← sees (.symbol stop) then return none else return some (← expression)

def field (expression : Parser Expr) : Parser (String × Expr) := do
  let key ← name
  symbol .assign
  let value ← expression
  return (key, value)

/-- A property of a class after its modifiers. -/
def property (expression : Parser Expr) (access : Access) (isStatic : Bool) :
    Parser (MethodDef (List Stmt) ⊕ PropertyDef Expr) := do
  let property ← name
  let value ← if ← accept (.symbol .assign) then some <$> expression else pure none
  symbol .semicolon
  return .inr { name := property, value, access, isStatic }

/-- A member of a class after its access modifier. -/
def member (method : Access → Bool → Parser (MethodDef (List Stmt))) (expression : Parser Expr)
    (access : Access) : Parser (MethodDef (List Stmt) ⊕ PropertyDef Expr) := do
  let isStatic ← accept (.keyword .staticWord)
  if ← sees (.keyword .functWord) then
    return .inl (← method access isStatic)
  else property expression access isStatic

def classMember (method : Access → Bool → Parser (MethodDef (List Stmt)))
    (expression : Parser Expr) :
    Parser (MethodDef (List Stmt) ⊕ PropertyDef Expr) := do
  match Access.ofLexeme? (← current).lexeme with
  | some a =>
      advance
      member method expression a
  | none => member method expression .everyone

variable (rounds : Nat)

mutual

/-- A statement; `none` for an empty one. -/
def statement : Nat → Parser (Option Stmt)
  | 0 => throw .tooDeep
  | d + 1 => do
      match (← current).lexeme with
      | .keyword .classWord => return some (.classDef (← classDef d))
      | .keyword .functWord =>
          let f ← function d
          symbol .semicolon
          return some (.expr (.function f))
      | .keyword .ifWord => some <$> conditional d
      | .keyword .whileWord =>
          advance
          symbol .lparen
          let c ← expression d
          symbol .rparen
          return some (.while c (← block d))
      | .keyword .doWord =>
          advance
          let body ← block d
          keyword .whileWord
          symbol .lparen
          let c ← expression d
          symbol .rparen
          symbol .semicolon
          return some (.doWhile body c)
      | .keyword .forWord =>
          advance
          symbol .lparen
          let init ← optional (expression d) .semicolon
          symbol .semicolon
          let condition ← optional (expression d) .semicolon
          symbol .semicolon
          let increment ← optional (expression d) .rparen
          symbol .rparen
          return some (.for init condition increment (← block d))
      | .keyword .breakWord =>
          advance
          symbol .semicolon
          return some .break
      | .keyword .continueWord =>
          advance
          symbol .semicolon
          return some .continue
      | .keyword .returnWord =>
          advance
          let value ← optional (expression d) .semicolon
          symbol .semicolon
          return some (.return value)
      | .symbol .lbrace => return some (.block (← block d))
      | .symbol .semicolon =>
          advance
          return none
      | _ =>
          let e ← expression d
          symbol .semicolon
          return some (.expr e)

def block : Nat → Parser (List Stmt)
  | 0 => throw .tooDeep
  | d + 1 => do
      symbol .lbrace
      let body ← statementsUntil rounds (.symbol .rbrace) (statement d)
      symbol .rbrace
      return body

/-- A conditional; one after `else` is the only statement of the other branch. -/
def conditional : Nat → Parser Stmt
  | 0 => throw .tooDeep
  | d + 1 => do
      keyword .ifWord
      symbol .lparen
      let c ← expression d
      symbol .rparen
      let thenBody ← block d
      if ← accept (.keyword .elseWord) then
        if ← sees (.keyword .ifWord) then
          return .cond c thenBody (some [← conditional d])
        else return .cond c thenBody (some (← block d))
      else return .cond c thenBody none

def function : Nat → Parser (FunctionDef (List Stmt))
  | 0 => throw .tooDeep
  | d + 1 => do
      keyword .functWord
      let fname ← if ← sees .name then some <$> name else pure none
      let params ← parameters rounds
      let body ← block d
      return { name := fname, params, body }

def method : Nat → Access → Bool → Parser (MethodDef (List Stmt))
  | 0, _, _ => throw .tooDeep
  | d + 1, access, isStatic => do
      keyword .functWord
      let mname ← name
      let params ← parameters rounds
      let body ← block d
      return { name := mname, params, body, access, isStatic }

def classDef : Nat → Parser (ClassDef Expr (List Stmt))
  | 0 => throw .tooDeep
  | d + 1 => do
      keyword .classWord
      let cname ← name
      let parent ← if ← accept (.keyword .extendsWord) then some <$> name else pure none
      symbol .lbrace
      let members ←
        itemsUntil (.symbol .rbrace) (classMember (method d) (expression d)) rounds
      symbol .rbrace
      return {
        name := cname
        parent
        methods := members.filterMap fun m => m.getLeft?
        properties := members.filterMap fun m => m.getRight? }

/-- An expression: an assignment or an operand of one. -/
def expression : Nat → Parser Expr
  | 0 => throw .tooDeep
  | d + 1 => do
      let target ← binary d 0
      if ← sees (.symbol .assign) then
        match target with
        | .name x =>
            advance
            return .assign x (← expression d)
        | .index a i =>
            advance
            return .assignIndex a i (← expression d)
        | .member o m =>
            advance
            return .assignMember o m (← expression d)
        | _ => throw .badTarget
      else return target

/-- Binary operators of a level, with operands of the next. -/
def binary : Nat → Nat → Parser Expr
  | 0, _ => throw .tooDeep
  | d + 1, level => do
      let operand := if level < BinaryOp.lastLevel then binary d (level + 1) else unary d
      let left ← operand
      chain operand level rounds left

/-- A unary operator and its operand, or an expression with suffixes. -/
def unary : Nat → Parser Expr
  | 0 => throw .tooDeep
  | d + 1 => do
      match UnaryOp.ofLexeme? (← current).lexeme with
      | some op =>
          advance
          return .unary op (← unary d)
      | none =>
          let e ← primary d
          suffixes rounds (expression d) rounds e

/-- The expressions that stand by themselves. -/
def primary : Nat → Parser Expr
  | 0 => throw .tooDeep
  | d + 1 => do
      let t ← current
      match t.lexeme with
      | .whole n =>
          advance
          return .literal (.whole n)
      | .real x =>
          advance
          return .literal (.real x)
      | .text s =>
          advance
          return .literal (.text s)
      | .name x =>
          advance
          return .name x
      | .symbol .lparen =>
          advance
          let e ← expression d
          symbol .rparen
          return e
      | .symbol .lbrace =>
          advance
          let fields ← listUntil rounds .rbrace (field (expression d))
          return .object (fields.foldl (fun fs f => putField f.1 f.2 fs) [])
      | .symbol .lbracket =>
          advance
          return .array (← listUntil rounds .rbracket (expression d))
      | .keyword .functWord => return .function (← function d)
      | .keyword .trueWord =>
          advance
          return .literal (.bool true)
      | .keyword .falseWord =>
          advance
          return .literal (.bool false)
      | .keyword .nullWord =>
          advance
          return .literal .null
      | .keyword .newWord =>
          advance
          let cname ← name
          symbol .lparen
          return .new cname (← listUntil rounds .rparen (expression d))
      | .keyword .thisWord =>
          advance
          return .this
      | _ => throw (.unexpected t.kind t.line t.col)

end

def directive : Parser String := do
  match (← expect .includes).lexeme with
  | .includes p => return p
  | _ => return ""

def directives : Nat → Parser (List String)
  | 0 => pure []
  | n + 1 => do
      if ← sees .includes then
        let p ← directive
        let ps ← directives n
        return p :: ps
      else return []

/-- A whole program whose rules nest at most `depth` deep. -/
def program (depth : Nat) : Parser Program := do
  let includes ← directives rounds
  let statements ← statementsUntil rounds .finish (statement rounds depth)
  return { includes, statements }

end Parser

/-- How deep the rules of a program may nest. -/
def Program.nestingLimit : Nat := 980

/-- The program that tokens stand for. Its class definitions have no numbers yet. -/
def Program.parse (tokens : List Token) : Except ParseError Program :=
  (·.1) <$> (Parser.program tokens.length Program.nestingLimit).run tokens

end ScriptLang
