/-!
# Programs

The trees that source texts stand for: expressions, statements, functions and classes. A function
written as a statement and one written as an expression are the same tree.
-/

namespace ScriptLang

/-- A value that is written out. -/
inductive Literal where
  | null
  | bool (b : Bool)
  | whole (n : Nat)
  | real (x : Float)
  | text (s : String)
deriving Repr

inductive BinaryOp where
  | or | and | eq | ne | lt | gt | le | ge | add | sub | mul | div | mod
deriving DecidableEq, Repr

def BinaryOp.spelling : BinaryOp → String
  | .or => "||"
  | .and => "&&"
  | .eq => "=="
  | .ne => "!="
  | .lt => "<"
  | .gt => ">"
  | .le => "<="
  | .ge => ">="
  | .add => "+"
  | .sub => "-"
  | .mul => "*"
  | .div => "/"
  | .mod => "%"

inductive UnaryOp where
  | neg | not
deriving DecidableEq, Repr

def UnaryOp.spelling : UnaryOp → String
  | .neg => "-"
  | .not => "!"

/-- Who may use a member. -/
inductive Access where
  | everyone | ownClass | family
deriving DecidableEq, Repr

def Access.spelling : Access → String
  | .everyone => "public"
  | .ownClass => "private"
  | .family => "protected"

/-- A function as it is written, with or without a name. -/
structure FunctionDef (β : Type) where
  name : Option String
  params : List String
  body : β
deriving Repr

/-- A method as it is written. -/
structure MethodDef (β : Type) where
  name : String
  params : List String
  body : β
  access : Access := .everyone
  isStatic : Bool := false
deriving Repr

/-- A property of a class with an initial value of type `ε`. -/
structure PropertyDef (ε : Type) where
  name : String
  value : Option ε
  access : Access := .everyone
  isStatic : Bool := false
deriving Repr

/-- A class definition. `site` is a number that tells apart the definitions of the programs that one
session runs; it is zero until the definition is given one. -/
structure ClassDef (ε β : Type) where
  name : String
  parent : Option String
  methods : List (MethodDef β)
  properties : List (PropertyDef ε)
  site : Nat := 0
deriving Repr

mutual

/-- Expressions. -/
inductive Expr where
  | literal (value : Literal)
  | name (name : String)
  | this
  | array (items : List Expr)
  | object (fields : List (String × Expr))
  | function (f : FunctionDef (List Stmt))
  | call (callee : Expr) (args : List Expr)
  | member (object : Expr) (name : String)
  | index (array : Expr) (index : Expr)
  | unary (op : UnaryOp) (operand : Expr)
  | binary (op : BinaryOp) (left right : Expr)
  | assign (name : String) (value : Expr)
  | assignIndex (array index value : Expr)
  | assignMember (object : Expr) (name : String) (value : Expr)
  | new (className : String) (args : List Expr)

/-- Statements. -/
inductive Stmt where
  | expr (e : Expr)
  | block (body : List Stmt)
  | cond (condition : Expr) (thenBody : List Stmt) (elseBody : Option (List Stmt))
  | while (condition : Expr) (body : List Stmt)
  | doWhile (body : List Stmt) (condition : Expr)
  | for (init condition increment : Option Expr) (body : List Stmt)
  | break
  | continue
  | return (value : Option Expr)
  | classDef (c : ClassDef Expr (List Stmt))

end

/-- A source that was read. -/
structure Program where
  includes : List String
  statements : List Stmt

end ScriptLang
