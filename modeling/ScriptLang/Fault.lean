import ScriptLang.Program.Parse
import ScriptLang.Text.Quoted
import ScriptLang.Token.Scan

/-!
# Faults

What can go wrong while a program is read or run, by cause. `Fault.kind` sorts the causes into the
families that callers tell apart, and `Fault.message` words them.
-/

namespace ScriptLang

open ScriptLang.Text ScriptLang.Number

inductive FaultKind where
  | syntaxFault | unbound | type | attribute | value | runtime | zeroDivision | overflow
  | index | key | importing | endOfInput | fileMissing | isDirectory | notDirectory | fileExists
  | permission | json | system | tooDeep | unsupported | decoding | encoding | breakEscaped
  | continueEscaped | returnEscaped | interrupt | timeout | memory
deriving DecidableEq, Repr

def FaultKind.title : FaultKind → String
  | .syntaxFault => "SyntaxError"
  | .unbound => "NameError"
  | .type => "TypeError"
  | .attribute => "AttributeError"
  | .value => "ValueError"
  | .runtime => "RuntimeError"
  | .zeroDivision => "ZeroDivisionError"
  | .overflow => "OverflowError"
  | .index => "IndexError"
  | .key => "KeyError"
  | .importing => "ImportError"
  | .endOfInput => "EOFError"
  | .fileMissing => "FileNotFoundError"
  | .isDirectory => "IsADirectoryError"
  | .notDirectory => "NotADirectoryError"
  | .fileExists => "FileExistsError"
  | .permission => "PermissionError"
  | .json => "JSONDecodeError"
  | .system => "OSError"
  | .tooDeep => "RecursionError"
  | .unsupported => "UnsupportedOperation"
  | .decoding => "UnicodeDecodeError"
  | .encoding => "UnicodeEncodeError"
  | .breakEscaped => "BreakException"
  | .continueEscaped => "ContinueException"
  | .returnEscaped => "ReturnException"
  | .interrupt => "KeyboardInterrupt"
  | .timeout => "TimeoutExpired"
  | .memory => "MemoryError"

inductive Fault where
  /-- the source text has no tokens -/
  | scan (e : ScanError)
  /-- the tokens are not a program -/
  | parse (e : ParseError)
  /-- no variable of that name is in scope -/
  | unbound (name : String)
  /-- a value is called that is not a function; `shown` is its text -/
  | notCallable (shown : String)
  /-- a package function calls a value of that type, which is not a function -/
  | typeNotCallable (type : String)
  /-- a name used as a class is bound to something else -/
  | notAClass (name : String)
  /-- a value has no member of that name -/
  | noMember (name : String)
  /-- a class has no static member of that name -/
  | noStaticMember (cls name : String)
  /-- an instance has no property of that name -/
  | noProperty (name : String)
  /-- no method of that name -/
  | noMethod (name : String) (count : Nat)
  | noStaticMethod (name : String) (count : Nat)
  /-- a private member is used from outside -/
  | privateProperty (name : String)
  | privateMethod (name : String)
  /-- a property of something that has none is assigned -/
  | noPropertiesOn (shownType : String)
  /-- an operator does not apply to operands of these types -/
  | badOperands (op left right : String)
  | badOperand (op type : String)
  /-- values of these types have no order -/
  | unordered (op left right : String)
  /-- division by zero, worded by the operation -/
  | divisionByZero (message : String)
  /-- reading or writing an index failed; `what` words the operation -/
  | badIndex (what message : String)
  | notIndexable (what shownType : String)
  /-- an indexed assignment to something other than a variable -/
  | badIndexTarget
  /-- a value that can change is used as a key -/
  | unhashable (type : String)
  /-- a function got the wrong number of arguments -/
  | arguments (message : String)
  /-- a package is neither built in nor installed -/
  | noPackage (name : String)
  /-- a script is in none of the places it was looked for -/
  | noScript (name : String) (tried : List String)
  /-- a whole number has too many digits for decimal text -/
  | tooManyDigits
  /-- the nesting limit of evaluation is reached -/
  | tooDeep
  /-- a failure of a package, with its own wording -/
  | other (kind : FaultKind) (message : String)
deriving DecidableEq

/-- The limit on the digits of whole numbers, as messages word it. -/
def digitLimitText : String :=
  "Exceeds the limit (4300 digits) for integer string conversion"

def digitLimitAdvice : String :=
  "; use sys.set_int_max_str_digits() to increase the limit"

def notWholeMessage (word : String) : NotWhole → String
  | .malformed => "invalid literal for int() with base 10: " ++ quoted word
  | .tooLong n => digitLimitText ++ s!": value has {n} digits" ++ digitLimitAdvice

def notFloatMessage (word : String) : String :=
  "could not convert string to float: " ++ quoted word

def ScanError.kind : ScanError → FaultKind
  | .unexpected .. | .directive .. => .syntaxFault
  | .notWhole .. | .notReal _ => .value
  | .openEscape => .type

def ScanError.message : ScanError → String
  | .unexpected c line col => s!"Unexpected character '{c}' at {line}:{col}"
  | .directive line col => s!"Invalid include syntax at {line}:{col}"
  | .notWhole word why => notWholeMessage word why
  | .notReal word => notFloatMessage word
  | .openEscape => "can only concatenate str (not \"NoneType\") to str"

def ParseError.kind : ParseError → FaultKind
  | .tooDeep => .tooDeep
  | _ => .syntaxFault

def ParseError.message : ParseError → String
  | .expected want got line col =>
      s!"Expected TokenType.{want.title}, got TokenType.{got.title} at {line}:{col}"
  | .unexpected got line col => s!"Unexpected token TokenType.{got.title} at {line}:{col}"
  | .badTarget => "Invalid assignment target"
  | .tooDeep => "maximum recursion depth exceeded"

def Fault.kind : Fault → FaultKind
  | .scan e => e.kind
  | .parse e => e.kind
  | .unbound _ => .unbound
  | .notCallable _ | .typeNotCallable _ | .notAClass _ | .noPropertiesOn _ => .type
  | .noMember _ | .noStaticMember .. | .noProperty _ | .noMethod .. | .noStaticMethod ..
  | .privateProperty _ | .privateMethod _ => .attribute
  | .badOperands .. | .badOperand .. | .unordered .. => .type
  | .divisionByZero _ => .zeroDivision
  | .badIndex .. | .badIndexTarget => .runtime
  | .notIndexable .. | .unhashable _ | .arguments _ => .type
  | .noPackage _ | .noScript .. => .importing
  | .tooManyDigits => .value
  | .tooDeep => .tooDeep
  | .other kind _ => kind

def Fault.message : Fault → String
  | .scan e => e.message
  | .parse e => e.message
  | .unbound name => s!"Variable '{name}' not defined"
  | .notCallable shown => s!"'{shown}' is not callable"
  | .typeNotCallable type => s!"'{type}' object is not callable"
  | .notAClass name => s!"'{name}' is not a class"
  | .noMember name => s!"Object has no member '{name}'"
  | .noStaticMember cls name => s!"Class '{cls}' has no static member '{name}'"
  | .noProperty name => s!"Property '{name}' not found"
  | .noMethod name count => s!"Method '{name}' with {count} arguments not found"
  | .noStaticMethod name count => s!"Static method '{name}' with {count} arguments not found"
  | .privateProperty name => s!"Cannot access private property '{name}'"
  | .privateMethod name => s!"Cannot access private method '{name}'"
  | .noPropertiesOn shownType => s!"Cannot set property on {shownType}"
  | .badOperands op left right => s!"unsupported operand type(s) for {op}: '{left}' and '{right}'"
  | .badOperand op type => s!"bad operand type for {op}: '{type}'"
  | .unordered op left right =>
      s!"'{op}' not supported between instances of '{left}' and '{right}'"
  | .divisionByZero message => message
  | .badIndex what message => s!"{what} error: {message}"
  | .notIndexable what shownType => s!"{what} {shownType}"
  | .badIndexTarget => "Can only assign to indexed variables"
  | .unhashable type => s!"unhashable type: '{type}'"
  | .arguments message => message
  | .noPackage name => s!"Package not found: {name}"
  | .noScript name tried =>
      s!"Script not found: {name}.zen (tried: " ++ String.intercalate ", " tried ++ ")"
  | .tooManyDigits => digitLimitText ++ digitLimitAdvice
  | .tooDeep => "maximum recursion depth exceeded"
  | .other _ message => message

end ScriptLang
