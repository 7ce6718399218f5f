import ScriptLang.Number.Reading
import ScriptLang.Token

/-!
# From characters to tokens

A source text is read from left to right. Blanks and comments are passed over, and the longest
lexeme at the current place is taken: an include directive, a number, a quoted text, a name or
reserved word, or a symbol. A token is reported at the column where it starts and the line where
it ends, which differ only for texts and directives that run over a line end.
-/

namespace ScriptLang

open ScriptLang.Text ScriptLang.Number

/-- Why a source text has no tokens. -/
inductive ScanError where
  /-- no lexeme starts with this character -/
  | unexpected (c : Char) (line col : Nat)
  /-- an include directive without its angle bracket -/
  | directive (line col : Nat)
  /-- digits that are not a whole number -/
  | notWhole (word : String) (why : NotWhole)
  /-- digits and points that are not a number -/
  | notReal (word : String)
  /-- the text ends in an escape -/
  | openEscape
deriving DecidableEq, Repr

/-- The blanks between tokens. -/
def isLayout (c : Char) : Bool :=
  c = ' ' || c = '\t' || c = '\n' || c = '\r'

/-- Splits after the first star and slash; all of the source when it has none. -/
def splitBlockComment : List Char → List Char × List Char
  | '*' :: '/' :: rest => (['*', '/'], rest)
  | c :: rest => let r := splitBlockComment rest; (c :: r.1, r.2)
  | [] => ([], [])

/-- The rest of the current line, and what follows it. -/
def splitLine (cs : List Char) : List Char × List Char :=
  (cs.takeWhile (· ≠ '\n'), cs.dropWhile (· ≠ '\n'))

/-- The comment at the start of the source and the rest. A comment runs from `//` or `**` to the end
of the line, or from a slash and a star to the next star and slash. -/
def splitComment : List Char → Option (List Char × List Char)
  | '/' :: '/' :: cs => let r := splitLine cs; some ('/' :: '/' :: r.1, r.2)
  | '/' :: '*' :: cs => let r := splitBlockComment cs; some ('/' :: '*' :: r.1, r.2)
  | '*' :: '*' :: cs => let r := splitLine cs; some ('*' :: '*' :: r.1, r.2)
  | _ => none

/-- A lexeme, the characters it was read from, and the characters after them. -/
structure Piece where
  taken : List Char
  lexeme : Lexeme
  rest : List Char

def isNumberChar (c : Char) : Bool :=
  isDigit c || c = '.'

/-- The characters of names after the first. -/
def isNameChar (c : Char) : Bool :=
  isAlphanumeric c || c = '_'

def isNameStart (c : Char) : Bool :=
  isLetter c || c = '_'

/-- The number a run of digits and points stands for: a float when it has a point. -/
def readNumber (word : List Char) : Except ScanError Lexeme :=
  if word.contains '.' then
    match readFloat word with
    | some x => .ok (.real x)
    | none => .error (.notReal (String.ofList word))
  else
    match readWhole maxLiteralDigits word with
    | .ok n => .ok (.whole n.toNat)
    | .error why => .error (.notWhole (String.ofList word) why)
where
  /-- Longer whole numbers are refused. -/
  maxLiteralDigits : Nat := 4300

/-- The character an escape stands for. -/
def unescape (c : Char) : Char :=
  if c = 'n' then '\n' else if c = 't' then '\t' else c

/-- Reads a quoted text after its opening quote `q`, up to the closing one or the end of the source:
the characters taken, the text they stand for, and the rest. -/
def readText (q : Char) : List Char → Except ScanError (List Char × List Char × List Char)
  | [] => .ok ([], [], [])
  | c :: cs =>
      if c = q then .ok ([c], [], cs)
      else if c = '\\' then
        match cs with
        | [] => .error .openEscape
        | d :: cs => (readText q cs).map fun r => (c :: d :: r.1, unescape d :: r.2.1, r.2.2)
      else (readText q cs).map fun r => (c :: r.1, c :: r.2.1, r.2.2)

/-- The word or name a run of letters stands for. -/
def wordLexeme (word : String) : Lexeme :=
  match Keyword.ofSpelling? word with
  | some k => .keyword k
  | none => .name word

/-- The symbol at the start of the source, the longer one where two fit, and the rest. -/
def readSymbol : List Char → Option (Symbol × List Char)
  | '=' :: '=' :: cs => some (.eq, cs)
  | '!' :: '=' :: cs => some (.neq, cs)
  | '<' :: '=' :: cs => some (.lte, cs)
  | '>' :: '=' :: cs => some (.gte, cs)
  | '&' :: '&' :: cs => some (.and, cs)
  | '|' :: '|' :: cs => some (.or, cs)
  | '+' :: cs => some (.plus, cs)
  | '-' :: cs => some (.minus, cs)
  | '*' :: cs => some (.multiply, cs)
  | '/' :: cs => some (.divide, cs)
  | '%' :: cs => some (.modulo, cs)
  | '=' :: cs => some (.assign, cs)
  | '!' :: cs => some (.not, cs)
  | '<' :: cs => some (.lt, cs)
  | '>' :: cs => some (.gt, cs)
  | '(' :: cs => some (.lparen, cs)
  | ')' :: cs => some (.rparen, cs)
  | '{' :: cs => some (.lbrace, cs)
  | '}' :: cs => some (.rbrace, cs)
  | ';' :: cs => some (.semicolon, cs)
  | ',' :: cs => some (.comma, cs)
  | '.' :: cs => some (.dot, cs)
  | '[' :: cs => some (.lbracket, cs)
  | ']' :: cs => some (.rbracket, cs)
  | ':' :: cs => some (.colon, cs)
  | _ => none

def directiveWord : List Char := ".include".toList

/-- Reads an include directive: the rest of its word, blanks, and a package name in angle
brackets. -/
def readDirective (p : Place) (cs : List Char) : Except ScanError Piece :=
  let word := cs.takeWhile (!isBlank ·)
  let rest := cs.dropWhile (!isBlank ·)
  let gap := rest.takeWhile isLayout
  match rest.dropWhile isLayout with
  | '<' :: tail =>
      let package := tail.takeWhile (· ≠ '>')
      let close := tail.dropWhile (· ≠ '>')
      .ok ⟨word ++ gap ++ '<' :: package ++ close.take 1, .includes (String.ofList package),
        close.drop 1⟩
  | _ => let stop := p.after (word ++ gap); .error (.directive stop.line stop.col)

/-- The lexeme at the start of a source that starts with neither blank nor comment. -/
def readLexeme (p : Place) : List Char → Except ScanError Piece
  | [] => .ok ⟨[], .finish, []⟩
  | c :: cs =>
      if directiveWord.isPrefixOf (c :: cs) then readDirective p (c :: cs)
      else if isDigit c then
        let word := (c :: cs).takeWhile isNumberChar
        (readNumber word).map fun l => ⟨word, l, (c :: cs).dropWhile isNumberChar⟩
      else if c = '"' || c = '\'' then
        (readText c cs).map fun r => ⟨c :: r.1, .text (String.ofList r.2.1), r.2.2⟩
      else if isNameStart c then
        let word := (c :: cs).takeWhile isNameChar
        .ok ⟨word, wordLexeme (String.ofList word), (c :: cs).dropWhile isNameChar⟩
      else
        match readSymbol (c :: cs) with
        | some (s, rest) => .ok ⟨s.spelling.toList, .symbol s, rest⟩
        | none => .error (.unexpected c p.line p.col)

/-- All tokens of a source that starts at `p`. Every round passes over a comment or takes a lexeme,
so the first argument need not exceed the length of the source plus one. -/
def scanFrom : Nat → Place → List Char → Except ScanError (List Token)
  | 0, p, _ => .ok [⟨.finish, p.line, p.col⟩]
  | n + 1, p, cs =>
      let p := p.after (cs.takeWhile isLayout)
      match cs.dropWhile isLayout with
      | [] => .ok [⟨.finish, p.line, p.col⟩]
      | c :: cs =>
          match splitComment (c :: cs) with
          | some (comment, rest) => scanFrom n (p.after comment) rest
          | none =>
              match readLexeme p (c :: cs) with
              | .error e => .error e
              | .ok piece =>
                  let stop := p.after piece.taken
                  (scanFrom n stop piece.rest).map (⟨piece.lexeme, stop.line, p.col⟩ :: ·)

/-- The tokens of a source text, the last of them marking its end. -/
def scan (source : String) : Except ScanError (List Token) :=
  let cs := source.toList
  scanFrom (cs.length + 1) {} cs

end ScriptLang
