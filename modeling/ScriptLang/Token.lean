/-!
# Tokens

The words of the language: keywords, symbols, literals, names and include directives, each with
the place where it stands. `Kind` is what a token is apart from its value; messages name tokens by
their kind.
-/

namespace ScriptLang

inductive Keyword where
  | functWord | ifWord | elseWord | whileWord | doWord | forWord | breakWord | continueWord
  | returnWord | trueWord | falseWord | nullWord | classWord | newWord | thisWord | extendsWord
  | staticWord | publicWord | privateWord | protectedWord
deriving DecidableEq, Repr

def Keyword.all : List Keyword :=
  [.functWord, .ifWord, .elseWord, .whileWord, .doWord, .forWord, .breakWord, .continueWord,
   .returnWord, .trueWord, .falseWord, .nullWord, .classWord, .newWord, .thisWord, .extendsWord,
   .staticWord, .publicWord, .privateWord, .protectedWord]

def Keyword.spelling : Keyword → String
  | .functWord => "funct"
  | .ifWord => "if"
  | .elseWord => "else"
  | .whileWord => "while"
  | .doWord => "do"
  | .forWord => "for"
  | .breakWord => "break"
  | .continueWord => "continue"
  | .returnWord => "return"
  | .trueWord => "true"
  | .falseWord => "false"
  | .nullWord => "null"
  | .classWord => "class"
  | .newWord => "new"
  | .thisWord => "this"
  | .extendsWord => "extends"
  | .staticWord => "static"
  | .publicWord => "public"
  | .privateWord => "private"
  | .protectedWord => "protected"

def Keyword.ofSpelling? (s : String) : Option Keyword :=
  Keyword.all.find? fun k => k.spelling == s

inductive Symbol where
  | plus | minus | multiply | divide | modulo | assign | eq | neq | lt | gt | lte | gte
  | and | or | not | lparen | rparen | lbrace | rbrace | lbracket | rbracket | semicolon
  | comma | dot | colon
deriving DecidableEq, Repr

def Symbol.spelling : Symbol → String
  | .plus => "+"
  | .minus => "-"
  | .multiply => "*"
  | .divide => "/"
  | .modulo => "%"
  | .assign => "="
  | .eq => "=="
  | .neq => "!="
  | .lt => "<"
  | .gt => ">"
  | .lte => "<="
  | .gte => ">="
  | .and => "&&"
  | .or => "||"
  | .not => "!"
  | .lparen => "("
  | .rparen => ")"
  | .lbrace => "\x7b"
  | .rbrace => "\x7d"
  | .lbracket => "["
  | .rbracket => "]"
  | .semicolon => ";"
  | .comma => ","
  | .dot => "."
  | .colon => ":"

/-- A word of the language with its value. -/
inductive Lexeme where
  | keyword (k : Keyword)
  | symbol (s : Symbol)
  | whole (n : Nat)
  | real (x : Float)
  | text (s : String)
  | name (s : String)
  | includes (package : String)
  | finish
deriving Repr

inductive Kind where
  | keyword (k : Keyword)
  | symbol (s : Symbol)
  | number
  | text
  | name
  | includes
  | finish
deriving DecidableEq, Repr

def Lexeme.kind : Lexeme → Kind
  | .keyword k => .keyword k
  | .symbol s => .symbol s
  | .whole _ => .number
  | .real _ => .number
  | .text _ => .text
  | .name _ => .name
  | .includes _ => .includes
  | .finish => .finish

def Keyword.title : Keyword → String
  | .functWord => "FUNCT"
  | .ifWord => "IF"
  | .elseWord => "ELSE"
  | .whileWord => "WHILE"
  | .doWord => "DO"
  | .forWord => "FOR"
  | .breakWord => "BREAK"
  | .continueWord => "CONTINUE"
  | .returnWord => "RETURN"
  | .trueWord => "TRUE"
  | .falseWord => "FALSE"
  | .nullWord => "NULL"
  | .classWord => "CLASS"
  | .newWord => "NEW"
  | .thisWord => "THIS"
  | .extendsWord => "EXTENDS"
  | .staticWord => "STATIC"
  | .publicWord => "PUBLIC"
  | .privateWord => "PRIVATE"
  | .protectedWord => "PROTECTED"

def Symbol.title : Symbol → String
  | .plus => "PLUS"
  | .minus => "MINUS"
  | .multiply => "MULTIPLY"
  | .divide => "DIVIDE"
  | .modulo => "MODULO"
  | .assign => "ASSIGN"
  | .eq => "EQ"
  | .neq => "NEQ"
  | .lt => "LT"
  | .gt => "GT"
  | .lte => "LTE"
  | .gte => "GTE"
  | .and => "AND"
  | .or => "OR"
  | .not => "NOT"
  | .lparen => "LPAREN"
  | .rparen => "RPAREN"
  | .lbrace => "LBRACE"
  | .rbrace => "RBRACE"
  | .lbracket => "LBRACKET"
  | .rbracket => "RBRACKET"
  | .semicolon => "SEMICOLON"
  | .comma => "COMMA"
  | .dot => "DOT"
  | .colon => "COLON"

def Kind.title : Kind → String
  | .keyword k => k.title
  | .symbol s => s.title
  | .number => "NUMBER"
  | .text => "STRING"
  | .name => "IDENTIFIER"
  | .includes => "INCLUDE"
  | .finish => "EOF"

def Kind.all : List Kind :=
  Keyword.all.map .keyword ++ [.number, .text, .name] ++
  [Symbol.plus, .minus, .multiply, .divide, .modulo, .assign, .eq, .neq, .lt, .gt, .lte, .gte,
   .and, .or, .not, .lparen, .rparen, .lbrace, .rbrace, .lbracket, .rbracket, .semicolon,
   .comma, .dot, .colon].map .symbol ++ [.includes, .finish]

def Kind.ofTitle? (s : String) : Option Kind :=
  Kind.all.find? fun k => k.title == s

/-- A place in a source text: the number of characters before it, its line and its column, both
counted from one. -/
structure Place where
  pos : Nat := 0
  line : Nat := 1
  col : Nat := 1
deriving DecidableEq, Repr

def Place.step (p : Place) (c : Char) : Place :=
  if c = '\n' then ⟨p.pos + 1, p.line + 1, 1⟩ else ⟨p.pos + 1, p.line, p.col + 1⟩

def Place.after (p : Place) (cs : List Char) : Place :=
  cs.foldl Place.step p

/-- A lexeme and the line and column it is reported at. -/
structure Token where
  lexeme : Lexeme
  line : Nat
  col : Nat
deriving Repr

def Token.kind (t : Token) : Kind := t.lexeme.kind

end ScriptLang
