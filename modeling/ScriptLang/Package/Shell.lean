import ScriptLang.Files.Tree
import ScriptLang.Number.Reading

/-!
# A small command shell

Runs command lines made of `echo`, `printf`, `cat`, `true`, `false` and `exit`, with quotes,
variables, arithmetic, command substitution, pipes, lists and redirections. What goes to the error
channel is not kept.
-/

namespace ScriptLang.Shell

/-- What a shell knows: variables, files, the status of the last command, and whether it has
ended. -/
structure State where
  bindings : List (String × String)
  files : FileSystem
  cwd : Path
  clock : Float
  status : Nat := 0
  ended : Bool := false

inductive Part where
  | plain (s : List Char)
  | quoted (s : List Char)
  | variable (name : String) (inQuotes : Bool)
  | arithmetic (source : List Char) (inQuotes : Bool)
  | command (source : List Char) (inQuotes : Bool)

inductive Target where
  | file (append : Bool)
  | channel (n : Nat)

inductive Tok where
  | word (parts : List Part)
  | operator (s : String)
  /-- the output channel that is redirected, and where to -/
  | output (channel : Nat) (target : Target)
  | input

def isNameChar (c : Char) : Bool :=
  c.isAlphanum || c = '_'

/-- Characters up to the parenthesis that closes one already open, and the rest. -/
def untilClosed : Nat → List Char → List Char × List Char
  | _, [] => ([], [])
  | depth, c :: cs =>
      if c = ')' then
        match depth with
        | 0 => ([], cs)
        | d + 1 => let r := untilClosed d cs; (c :: r.1, r.2)
      else
        let r := untilClosed (if c = '(' then depth + 1 else depth) cs
        (c :: r.1, r.2)

/-- The expansion after a dollar sign, and the rest. -/
def readExpansion (inQuotes : Bool) (cs : List Char) : Part × List Char :=
  match cs with
  | '(' :: '(' :: rest =>
      let r := untilClosed 0 rest
      (.arithmetic r.1 inQuotes, r.2.drop 1)
  | '(' :: rest => let r := untilClosed 0 rest; (.command r.1 inQuotes, r.2)
  | '{' :: rest =>
      (.variable (String.ofList (rest.takeWhile (· ≠ '}'))) inQuotes,
        (rest.dropWhile (· ≠ '}')).drop 1)
  | '?' :: rest => (.variable "?" inQuotes, rest)
  | c :: _ =>
      if c.isAlpha || c = '_' then
        (.variable (String.ofList (cs.takeWhile isNameChar)) inQuotes, cs.dropWhile isNameChar)
      else if c.isDigit then (.variable (String.singleton c) inQuotes, cs.drop 1)
      else (.quoted ['$'], cs)
  | [] => (.quoted ['$'], cs)

/-- The parts inside double quotes, up to the closing quote, and the rest. -/
def readQuoted : Nat → List Char → List Part × List Char
  | 0, cs => ([], cs)
  | fuel + 1, cs =>
      match cs with
      | [] => ([], [])
      | '"' :: rest => ([], rest)
      | '\\' :: c :: rest =>
          let r := readQuoted fuel rest
          if c = '"' || c = '\\' || c = '$' || c = Char.ofNat 96 then (.quoted [c] :: r.1, r.2)
          else if c = '\n' then r
          else (.quoted ['\\', c] :: r.1, r.2)
      | '$' :: rest =>
          let (p, rest) := readExpansion true rest
          let r := readQuoted fuel rest
          (p :: r.1, r.2)
      | c :: rest =>
          let r := readQuoted fuel rest
          (.quoted [c] :: r.1, r.2)

def endsWord (c : Char) : Bool :=
  " \t\n;|&<>()".toList.contains c

def readWord : Nat → List Char → List Part × List Char
  | 0, cs => ([], cs)
  | fuel + 1, cs =>
      match cs with
      | [] => ([], [])
      | '\'' :: rest =>
          let r := readWord fuel ((rest.dropWhile (· ≠ '\'')).drop 1)
          (.quoted (rest.takeWhile (· ≠ '\'')) :: r.1, r.2)
      | '"' :: rest =>
          let (inner, rest) := readQuoted (rest.length + 1) rest
          let r := readWord fuel rest
          (.quoted [] :: inner ++ r.1, r.2)
      | '\\' :: c :: rest =>
          let r := readWord fuel rest
          if c = '\n' then r else (.quoted [c] :: r.1, r.2)
      | '$' :: rest =>
          let (p, rest) := readExpansion false rest
          let r := readWord fuel rest
          (p :: r.1, r.2)
      | c :: rest =>
          if endsWord c then ([], cs)
          else
            let r := readWord fuel rest
            (.plain [c] :: r.1, r.2)

/-- The redirection of an output channel, after its mark. -/
def readTarget (channel : Nat) (cs : List Char) : Tok × List Char :=
  match cs with
  | '>' :: rest => (.output channel (.file true), rest)
  | '&' :: d :: rest => (.output channel (.channel (d.toNat - 48)), rest)
  | rest => (.output channel (.file false), rest)

def tokens : Nat → List Char → List Tok
  | 0, _ => []
  | fuel + 1, cs =>
      match cs with
      | [] => []
      | '&' :: '&' :: rest => .operator "&&" :: tokens fuel rest
      | '|' :: '|' :: rest => .operator "||" :: tokens fuel rest
      | '|' :: rest => .operator "|" :: tokens fuel rest
      | ';' :: rest | '\n' :: rest | '&' :: rest => .operator ";" :: tokens fuel rest
      | '<' :: rest => .input :: tokens fuel rest
      | '>' :: rest => let (t, rest) := readTarget 1 rest; t :: tokens fuel rest
      | '1' :: '>' :: rest => let (t, rest) := readTarget 1 rest; t :: tokens fuel rest
      | '2' :: '>' :: rest => let (t, rest) := readTarget 2 rest; t :: tokens fuel rest
      | '#' :: rest => tokens fuel (rest.dropWhile (· ≠ '\n'))
      | c :: rest =>
          if c = ' ' || c = '\t' || c = '(' || c = ')' then tokens fuel rest
          else
            let (parts, rest') := readWord (cs.length + 1) cs
            if parts.isEmpty then tokens fuel rest else .word parts :: tokens fuel rest'

/-- The value of a variable; an unset one is empty. -/
def State.get (s : State) (name : String) : String :=
  if name == "?" then s!"{s.status}" else (s.bindings.lookup name).getD ""

def State.put (s : State) (name value : String) : State :=
  { s with bindings := (name, value) :: s.bindings }

/-- A whole number at the start of an arithmetic expression: digits, a variable, or a sign and
another. -/
def operand (s : State) (term : List Char → Int × List Char) : List Char → Int × List Char
  | '-' :: cs => let r := term cs; (-r.1, r.2)
  | '+' :: cs => term cs
  | '$' :: cs | cs =>
      match cs with
      | [] => (0, [])
      | c :: _ =>
          if c.isDigit then
            ((cs.takeWhile Char.isDigit).foldl (fun n c => 10 * n + ((c.toNat : Int) - 48)) 0,
              cs.dropWhile Char.isDigit)
          else
            let value := s.get (String.ofList (cs.takeWhile isNameChar))
            (((Number.readWhole 4300 value.toList).toOption).getD 0,
              (cs.dropWhile isNameChar))

/-- The operation of an arithmetic operator: its level and its function. -/
def arithmeticOp (c : Char) : Option (Nat × (Int → Int → Int)) :=
  if c = '+' then some (0, (· + ·))
  else if c = '-' then some (0, (· - ·))
  else if c = '*' then some (1, (· * ·))
  else if c = '/' then some (1, Int.tdiv)
  else if c = '%' then some (1, Int.tmod)
  else none

/-- The value of an arithmetic expression without blanks whose operators bind at least as tightly
as a level, and the rest. -/
def arithmetic (s : State) : Nat → Nat → List Char → Int × List Char
  | 0, _, cs => (0, cs)
  | fuel + 1, level, cs =>
      let first :=
        match cs with
        | '(' :: rest =>
            let (n, rest) := arithmetic s fuel 0 rest
            (n, rest.drop 1)
        | cs => operand s (arithmetic s fuel 2) cs
      further s fuel level first.1 first.2
where
  /-- The operators after a value. -/
  further (s : State) (fuel level : Nat) (left : Int) (cs : List Char) : Int × List Char :=
    match fuel with
    | 0 => (left, cs)
    | fuel + 1 =>
        match cs with
        | [] => (left, [])
        | c :: rest =>
            match arithmeticOp c with
            | none => (left, cs)
            | some (k, f) =>
                if k < level then (left, cs)
                else
                  let (right, rest) := arithmetic s fuel (k + 1) rest
                  further s fuel level (f left right) rest

/-- The fields of a word: the text gathered so far, whether there is one at all, and the finished
ones. -/
structure Fields where
  done : List String := []
  current : List Char := []
  started : Bool := false

def Fields.close (f : Fields) : Fields :=
  if f.started then { done := f.done ++ [String.ofList f.current] } else f

def Fields.push (f : Fields) (cs : List Char) : Fields :=
  { f with current := f.current ++ cs, started := true }

/-- Adds the text of an expansion, which is cut at blanks outside quotes. -/
def Fields.expand (f : Fields) (inQuotes : Bool) (text : String) : Fields :=
  if inQuotes then f.push text.toList
  else
    text.toList.foldl
      (fun f c => if c = ' ' || c = '\t' || c = '\n' then f.close else f.push [c]) f

def dropLineEnds (s : String) : String :=
  String.ofList (s.toList.reverse.dropWhile (· = '\n')).reverse

/-- The value of an octal escape of at most three digits, and the rest. -/
def octal : Nat → Nat → List Char → Nat × List Char
  | 0, n, cs => (n, cs)
  | count + 1, n, cs =>
      match cs with
      | c :: rest =>
          if '0' ≤ c && c ≤ '7' then octal count (8 * n + (c.toNat - 48)) rest else (n, cs)
      | [] => (n, [])

/-- The character an escape letter stands for. -/
def escape? (c : Char) : Option Char :=
  if c = 'n' then some '\n'
  else if c = 't' then some '\t'
  else if c = 'r' then some '\r'
  else if c = 'a' then some (Char.ofNat 7)
  else if c = 'b' then some (Char.ofNat 8)
  else if c = 'f' then some (Char.ofNat 12)
  else if c = 'v' then some (Char.ofNat 11)
  else if c = '\\' then some '\\'
  else none

/-- Text with its escapes resolved, as `echo` prints it; `c` ends the output, which the second
component tells. -/
def unescape : Nat → List Char → List Char × Bool
  | 0, cs => (cs, false)
  | fuel + 1, cs =>
      match cs with
      | [] => ([], false)
      | '\\' :: 'c' :: _ => ([], true)
      | '\\' :: '0' :: rest =>
          let (n, rest) := octal 3 0 rest
          let r := unescape fuel rest
          (Char.ofNat n :: r.1, r.2)
      | '\\' :: c :: rest =>
          let r := unescape fuel rest
          match escape? c with
          | some d => (d :: r.1, r.2)
          | none => ('\\' :: c :: r.1, r.2)
      | c :: rest => let r := unescape fuel rest; (c :: r.1, r.2)

def echo (args : List String) : String :=
  let (args, ending) :=
    match args with
    | "-n" :: rest => (rest, "")
    | args => (args, "\n")
  let cs := (String.intercalate " " args).toList
  let (out, stopped) := unescape (cs.length + 1) cs
  String.ofList out ++ (if stopped then "" else ending)

/-- Pads a field of `printf`: a minus sign pads on the right, a zero pads with zeros. -/
def padField (flags width : List Char) (s : String) : String :=
  let n := width.foldl (fun n c => 10 * n + (c.toNat - 48)) 0
  let gap := n - s.length
  if flags.contains '-' then s ++ String.ofList (List.replicate gap ' ')
  else String.ofList (List.replicate gap (if flags.contains '0' then '0' else ' ')) ++ s

/-- One pass over the format of `printf`: what it prints and the arguments left. -/
def printOnce : Nat → List Char → List String → List Char × List String
  | 0, _, args => ([], args)
  | fuel + 1, cs, args =>
      match cs with
      | [] => ([], args)
      | '%' :: '%' :: rest => let r := printOnce fuel rest args; ('%' :: r.1, r.2)
      | '%' :: rest =>
          let flags := rest.takeWhile fun c => c = '-' || c = '0' || c = '+' || c = ' '
          let rest := rest.drop flags.length
          let width := rest.takeWhile Char.isDigit
          match rest.drop width.length with
          | [] => ([], args)
          | c :: rest =>
              let arg := args.headD ""
              let shown :=
                if c = 's' || c = 'b' then arg
                else if c = 'c' then String.ofList (arg.toList.take 1)
                else numberArgument arg
              let r := printOnce fuel rest args.tail
              ((padField flags width shown).toList ++ r.1, r.2)
      | '\\' :: c :: rest =>
          match escape? c with
          | some d => let r := printOnce fuel rest args; (d :: r.1, r.2)
          | none =>
              if '0' ≤ c && c ≤ '7' then
                let (n, rest) := octal 3 0 (c :: rest)
                let r := printOnce fuel rest args
                (Char.ofNat n :: r.1, r.2)
              else let r := printOnce fuel rest args; ('\\' :: c :: r.1, r.2)
      | c :: rest => let r := printOnce fuel rest args; (c :: r.1, r.2)
where
  /-- A number argument as text. -/
  numberArgument (arg : String) : String :=
    match Number.readWhole 4300 arg.toList with
    | .ok n => s!"{n}"
    | .error _ => "0"

/-- What `printf` prints: the format is used again as long as arguments are left. -/
def printf : Nat → List Char → List String → List Char
  | 0, _, _ => []
  | fuel + 1, format, args =>
      let (out, rest) := printOnce (format.length + 1) format args
      if rest.isEmpty || rest.length = args.length then out else out ++ printf fuel format rest

/-- The content of files one after the other, and whether all of them could be read. -/
def cat (s : State) (input : String) (args : List String) : String × Nat :=
  if args.isEmpty then (input, 0)
  else
    args.foldl
      (fun (out, status) name =>
        if name == "-" then (out ++ input, status)
        else
          match s.files.read s.cwd name with
          | .ok b => (out ++ (String.fromUTF8? b).getD "", status)
          | .error _ => (out, 1))
      ("", 0)

/-- Runs one command with its arguments: what it prints, and the state after it. -/
def command (s : State) (input : String) (name : String) (args : List String) : String × State :=
  match name with
  | "echo" => (echo args, { s with status := 0 })
  | "printf" =>
      match args with
      | [] => ("", { s with status := 2 })
      | f :: rest =>
          (String.ofList (printf (rest.length + 1) f.toList rest), { s with status := 0 })
  | "cat" => let (out, status) := cat s input args; (out, { s with status })
  | "true" | ":" => ("", { s with status := 0 })
  | "false" => ("", { s with status := 1 })
  | "exit" =>
      let status :=
        match args.head? with
        | some a => (((Number.readWhole 4300 a.toList).toOption).getD 2).toNat % 256
        | none => s.status
      ("", { s with status, ended := true })
  | _ => ("", { s with status := 127 })

/-- The parts of a simple command: its words, and where its channels lead. -/
structure Simple where
  words : List (List Part) := []
  outputs : List (Nat × Target × List Part) := []
  inputs : List (List Part) := []

/-- Sorts the tokens of a simple command. -/
def Simple.ofTokens : List Tok → Simple
  | [] => {}
  | .word p :: rest => let c := ofTokens rest; { c with words := p :: c.words }
  | .output n (.file a) :: .word p :: rest =>
      let c := ofTokens rest
      { c with outputs := (n, .file a, p) :: c.outputs }
  | .output n t :: rest => let c := ofTokens rest; { c with outputs := (n, t, []) :: c.outputs }
  | .input :: .word p :: rest => let c := ofTokens rest; { c with inputs := p :: c.inputs }
  | _ :: rest => ofTokens rest

/-- The tokens up to the first of the given operators, that operator, and the tokens after it. -/
def splitAtOperator (ops : List String) : List Tok → List Tok × Option (String × List Tok)
  | [] => ([], none)
  | .operator o :: rest =>
      if ops.contains o then ([], some (o, rest))
      else let r := splitAtOperator ops rest; (.operator o :: r.1, r.2)
  | t :: rest => let r := splitAtOperator ops rest; (t :: r.1, r.2)

/-- The variable that a word sets, if it is an assignment. -/
def assignment? (word : String) : Option (String × String) :=
  let cs := word.toList
  let name := cs.takeWhile isNameChar
  match cs.drop name.length with
  | '=' :: value =>
      if name.isEmpty || (name.headD '0').isDigit then none
      else some (String.ofList name, String.ofList value)
  | _ => none

/-- Sends printed text to where the channels lead; what is left is printed. -/
def redirect (s : State) (out : String) : List (Nat × Target × String) → String × State
  | [] => (out, s)
  | (1, .channel 2, _) :: rest => redirect s "" rest
  | (1, .file add, name) :: rest =>
      let old :=
        if add then ((s.files.read s.cwd name).toOption.getD ByteArray.empty) else ByteArray.empty
      match s.files.write s.cwd name (old ++ out.toUTF8) s.clock with
      | .ok files => redirect { s with files } "" rest
      | .error _ => redirect { s with status := 2 } "" rest
  | _ :: rest => redirect s out rest

mutual

def fieldsOf : Nat → State → List Part → List String
  | 0, _, _ => []
  | fuel + 1, s, parts =>
      let f := parts.foldl
        (fun (f : Fields) p =>
          match p with
          | .plain cs | .quoted cs => f.push cs
          | .variable name q => f.expand q (s.get name)
          | .arithmetic src q =>
              let cs := src.filter fun c => c ≠ ' '
              f.expand q s!"{(arithmetic s (cs.length + 2) 0 cs).1}"
          | .command src q =>
              f.expand q (dropLineEnds (runList fuel s "" (tokens (src.length + 1) src)).1))
        {}
      f.close.done

def runSimple : Nat → State → String → List Tok → String × State
  | 0, s, _, _ => ("", s)
  | fuel + 1, s, input, toks =>
      let c := Simple.ofTokens toks
      let one (p : List Part) := (fieldsOf fuel s p).headD ""
      let input := c.inputs.foldl
        (fun _ p => ((s.files.read s.cwd (one p)).toOption.bind String.fromUTF8?).getD "") input
      let outputs := c.outputs.map fun (n, t, p) => (n, t, one p)
      let words := (c.words.map (fieldsOf fuel s)).flatten
      let sets := words.takeWhile fun w => (assignment? w).isSome
      match words.drop sets.length with
      | [] =>
          let s := (sets.filterMap assignment?).foldl (fun s (x, v) => s.put x v)
            { s with status := 0 }
          redirect s "" outputs
      | name :: args =>
          let (out, s) := command s input name args
          redirect s out outputs

/-- Runs commands joined by pipes. -/
def runPipe : Nat → State → String → List Tok → String × State
  | 0, s, _, _ => ("", s)
  | fuel + 1, s, input, toks =>
      match splitAtOperator ["|"] toks with
      | (first, none) => runSimple fuel s input first
      | (first, some (_, rest)) =>
          let (out, s') := runSimple fuel s input first
          runPipe fuel { s' with ended := s.ended } out rest

/-- Runs a list of commands joined by `;`, `&&` and `||`. -/
def runList : Nat → State → String → List Tok → String × State
  | 0, s, _, _ => ("", s)
  | fuel + 1, s, before, toks =>
      let (first, next) := splitAtOperator [";", "&&", "||"] toks
      let skip := (before == "&&" && s.status ≠ 0) || (before == "||" && s.status == 0)
      let (out, s) := if skip || first.isEmpty then ("", s) else runPipe fuel s "" first
      if s.ended then (out, s)
      else
        match next with
        | none => (out, s)
        | some (o, rest) =>
            let (more, s) := runList fuel s o rest
            (out ++ more, s)

end

/-- Runs a command line: what it prints, and the state after it. -/
def run (s : State) (line : String) : String × State :=
  let cs := line.toList
  let toks := tokens (cs.length + 1) cs
  runList (4 * cs.length + 16) s "" toks

end ScriptLang.Shell
