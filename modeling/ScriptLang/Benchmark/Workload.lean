import ScriptLang.Session
import ScriptLang.Token.Cursor

/-!
# Workloads

Programs whose running time is measured. Each has a size and ends in a value that depends on all
that it did, so that none of its work can be left out.
-/

namespace ScriptLang.Benchmark

open ScriptLang.Action

def textOfLines (lines : List String) : String :=
  String.join (lines.map (· ++ "\n"))

def sampleIncludes : String :=
  textOfLines
  [".include <zenout>",
   ".include <math>",
   ".include <time>",
   ".include <zendb>",
   ".include <zenweb>"]

/-- A sample of every construct of the language. -/
def sampleBody : String :=
  textOfLines
  ["",
   "// single line comment",
   "/* multi",
   "   line comment */",
   "** legacy comment style",
   "",
   "class Animal \x7b",
   "    public name = \"beast\";",
   "    private secret = 42;",
   "    protected tag;",
   "    static kingdom = \"Animalia\";",
   "",
   "    funct Animal(n) \x7b",
   "        this.name = n;",
   "        this.tag = \"t\";",
   "    \x7d",
   "",
   "    public funct speak() \x7b",
   "        return \"...\" + this.name;",
   "    \x7d",
   "    public funct speak(loudness) \x7b",
   "        return this.name + \"!\" + loudness;",
   "    \x7d",
   "    private funct hidden() \x7b return this.secret; \x7d",
   "    static funct info() \x7b return \"static:\" + Animal.kingdom; \x7d",
   "    static funct info(x) \x7b return \"static:\" + x; \x7d",
   "\x7d",
   "",
   "class Dog extends Animal \x7b",
   "    public tricks = 0;",
   "    funct Dog(n, t) \x7b",
   "        this.name = n;",
   "        this.tricks = t;",
   "    \x7d",
   "    public funct speak() \x7b",
   "        return \"woof:\" + this.name + \":\" + this.hidden();",
   "    \x7d",
   "    private funct hidden() \x7b return 7; \x7d",
   "\x7d",
   "",
   "funct fib(n) \x7b",
   "    if (n <= 1) \x7b return n; \x7d",
   "    return fib(n - 1) + fib(n - 2);",
   "\x7d;",
   "",
   "funct compute(a, b) \x7b",
   "    x = a + b - 1 * 2 / 2 % 3;",
   "    y = -x;",
   "    z = !false;",
   "    s = \"hi\\n\\t\\\\\\\"\\q\";",
   "    t = 'single';",
   "    arr = [1, 2.5, \"three\", true, false, null];",
   "    obj = \x7bk = 1, m = \"v\", nested = \x7binner = [1, 2]\x7d\x7d;",
   "    obj.k = obj.k + 1;",
   "    obj[\"m\"] = \"w\";",
   "    arr[0] = arr[0] + arr[1];",
   "    acc = 0;",
   "    i = 0;",
   "    while (i < 5) \x7b",
   "        if (i == 2) \x7b i = i + 1; continue; \x7d",
   "        if (i >= 4) \x7b break; \x7d",
   "        acc = acc + i;",
   "        i = i + 1;",
   "    \x7d",
   "    j = 0;",
   "    do \x7b",
   "        j = j + 1;",
   "        if (j == 2) \x7b continue; \x7d",
   "        if (j > 3) \x7b break; \x7d",
   "    \x7d while (j < 10);",
   "    for (k = 0; k < 3; k = k + 1) \x7b",
   "        acc = acc + k;",
   "    \x7d",
   "    for (;;) \x7b break; \x7d",
   "    if (a < b && b > 0 || a == b) \x7b",
   "        acc = acc + 1;",
   "    \x7d else if (a != b) \x7b",
   "        acc = acc - 1;",
   "    \x7d else \x7b",
   "        acc = acc * 1;",
   "    \x7d",
   "    anon = funct(q) \x7b return q * q; \x7d;",
   "    acc = acc + anon(3);",
   "    cmp = (a <= b) && (b >= a) && (a == a) && (a != b + 1);",
   "    return [acc, y, z, s, t, arr, obj, cmp, fib(6)];",
   "\x7d;",
   "",
   ";",
   "\x7b spare = 1; \x7d",
   "",
   "d = new Dog(\"rex\", 3);",
   "d.speak();",
   "d.speak(10);",
   "Animal.info();",
   "Animal.info(5);",
   "Animal.kingdom;",
   "d.tricks = d.tricks + 1;",
   "d.name;",
   "holder = \x7bval = 0\x7d;",
   "holder.val = 99;",
   "lst = [10, 20, 30];",
   "lst[1] = 21;",
   "junk = lst[0] + lst[2];",
   "res = compute(4, 9);"]

def sampleProgram (copies : Nat) : String :=
  sampleIncludes ++ String.join (List.replicate copies sampleBody)

/-- A statement that adds the value of an expression to the results. -/
def collect (e : String) : String :=
  "push(results, " ++ e ++ ");"

/-- Calls of most functions that every program has, on arrays of `N` items. -/
def functionCalls : String :=
  textOfLines <|
    ["", "arr = range(0, N);", "nested = [[1,2],[3,[4,5]],6];",
     "obj = \x7ba = 1, b = 2, c = 3\x7d;", "results = [];"] ++
    ["str(1) + str(true)", "int(\"7\") + int(\"bad\") + float(\"1.5\") + float(\"bad\")",
     "bool(1)", "type([]) + type(\x7ba=1\x7d) + type(null) + type(\"s\")",
     "isNumber(1) && isString(\"x\") && isArray([]) && isObject(\x7ba=1\x7d) && " ++
       "isBool(true) && isNull(null)",
     "length(arr)"].map collect ++
    ["push(arr, 999); pop(arr); unshift(arr, -1); shift(arr);"] ++
    ["slice(arr, 1, 4)", "slice(arr, 1)", "indexOf(arr, 3)", "indexOf(arr, -999)",
     "includes(arr, 2)", "reverse(\"abc\")", "sort([3,1,2])", "join(arr, \",\")",
     "filter(arr, funct(x)\x7b return x < 5; \x7d)", "map(arr, funct(x)\x7b return x * 2; \x7d)",
     "upper(\"hi\") + lower(\"HI\") + trim(\"  a  \")", "split(\"a,b,c\", \",\")",
     "replace(\"foo\",\"o\",\"0\")", "startsWith(\"foo\",\"f\") && endsWith(\"foo\",\"o\")",
     "substring(\"hello\",1,3) + substring(\"hello\",2)",
     "charAt(\"abc\", 1) + charAt(\"abc\", 99)", "repeat(\"ab\", 3)", "sum(arr) + avg(arr)",
     "min(arr)", "max(arr)", "keys(obj)", "values(obj)", "hasKey(obj, \"a\")", "range(3)",
     "range(1, 5, 2)", "flatten(nested)", "flatten(nested, 1)", "chunk(arr, 3)",
     "zip([1,2],[3,4])", "unique([1,1,2,2,3])", "compact([0,1,null,2,false,3])",
     "difference([1,2,3],[2])", "intersection([1,2,3],[2,3,4])", "union([1,2],[2,3])",
     "capitalize(\"hello\") + capitalize(\"\")", "titleCase(\"hello world\")",
     "count(\"banana\",\"a\")", "padStart(\"x\",4,\"0\") + padEnd(\"x\",4,\".\")",
     "truncate(\"hello world\", 3) + truncate(\"hi\", 10)", "slugify(\"Hello World\")",
     "contains(\"hello\",\"ell\")", "merge(\x7ba=1\x7d,\x7bb=2\x7d)", "pick(obj, [\"a\",\"b\"])",
     "omit(obj, [\"a\"])", "entries(obj)", "fromEntries([[\"x\",1],[\"y\",2]])", "clamp(10, 0, 5)",
     "lerp(0, 10, 0.5)", "round(1.234, 2)", "abs(-5)", "sign(-3) + sign(0) + sign(4)",
     "formatNumber(3.14159, 2)", "parseJSON(\"[1,2,3]\")", "parseJSON(\"bad\")", "toJSON([1,2,3])",
     "deepCopy(obj)", "isEmpty([]) && isEmpty(\"\") && isEmpty(null) && !isEmpty(5)",
     "isEqual([1,2],[1,2])", "clone([1,2])", "clone(\x7ba=1\x7d)", "clone(5)",
     "forEach([1,2,3], funct(x)\x7b return x; \x7d)",
     "reduce([1,2,3,4], funct(a,b)\x7b return a + b; \x7d)",
     "reduce([1,2,3], funct(a,b)\x7b return a + b; \x7d, 10)",
     "reduce([], funct(a,b)\x7b return a; \x7d)",
     "every([1,2,3], funct(x)\x7b return x > 0; \x7d)",
     "some([1,2,3], funct(x)\x7b return x > 2; \x7d)",
     "find([1,2,3], funct(x)\x7b return x == 2; \x7d)",
     "findIndex([1,2,3], funct(x)\x7b return x == 2; \x7d)",
     "groupBy([1,2,3,4], funct(x)\x7b return x % 2; \x7d)",
     "sortBy([\x7bk=2\x7d,\x7bk=1\x7d], funct(o)\x7b return o.k; \x7d)", "take([1,2,3,4], 2)",
     "drop([1,2,3,4], 2)", "takeWhile([1,2,3,1], funct(x)\x7b return x < 3; \x7d)",
     "dropWhile([1,2,3,1], funct(x)\x7b return x < 3; \x7d)",
     "dropWhile([1,2], funct(x)\x7b return x < 9; \x7d)",
     "partition([1,2,3,4], funct(x)\x7b return x % 2 == 0; \x7d)",
     "pluck([\x7ba=1\x7d,\x7ba=2\x7d], \"a\")", "countBy([1,2,2,3], funct(x)\x7b return x; \x7d)",
     "times(3, funct(i)\x7b return i * i; \x7d)"].map collect ++
    ["mem = memoize(funct(x)\x7b return x + 1; \x7d);"] ++
    ["mem(1) + mem(1) + mem(2)"].map collect ++
    ["cu = curry(funct(a,b,c)\x7b return a + b + c; \x7d, 3);"] ++
    ["cu(1)(2)(3)", "compose(funct(x)\x7b return x + 1; \x7d, funct(x)\x7b return x * 2; \x7d)(3)",
     "pipe(funct(x)\x7b return x + 1; \x7d, funct(x)\x7b return x * 2; \x7d)(3)"].map collect ++
    ["noop();"] ++
    ["identity(42)", "constant(7)()", "negate(funct(x)\x7b return x > 0; \x7d)(1)"].map collect ++
    ["on = once(funct()\x7b return 1; \x7d);"] ++
    ["on() + on()"].map collect

def classProgram : String :=
  textOfLines
  ["class Counter \x7b",
   "    public value = 0;",
   "    funct Counter(v) \x7b this.value = v; \x7d",
   "    public funct get() \x7b return this.value; \x7d",
   "    public funct get(more) \x7b return this.value + more; \x7d",
   "\x7d",
   "class Pair extends Counter \x7b",
   "    funct Pair(v) \x7b this.value = v; \x7d",
   "    public funct twice() \x7b return this.get() + this.get(); \x7d",
   "\x7d",
   "total = 0;",
   "for (i = 0; i < N; i = i + 1) \x7b",
   "    c = new Pair(i);",
   "    total = total + c.value + c.get() + c.get(3) + c.get(5) + c.twice();",
   "\x7d"]

def libraryScript : String :=
  textOfLines
  ["funct triple(x) \x7b return x * 3; \x7d;",
   "funct greet(name) \x7b return \"hi \" + name; \x7d;"]

def libraryProgram : String :=
  textOfLines
  ["total = 0;",
   "for (i = 0; i < N; i = i + 1) \x7b total = total + triple(i); \x7d",
   "greeting = greet(\"world\");"]

/-- A loop over methods of the sample program. -/
def sampleLoop : String :=
  textOfLines
  ["acc = 0;",
   "for (i = 0; i < N; i = i + 1) \x7b acc = acc + d.speak() + Animal.info(i); \x7d"]

inductive Workload where
  | scanning | parsing | interpreting | classes | functions | including
deriving DecidableEq, Repr

def Workload.all : List Workload :=
  [.scanning, .parsing, .interpreting, .classes, .functions, .including]

def Workload.name : Workload → String
  | .scanning => "lexer_tokenize"
  | .parsing => "parser_parse"
  | .interpreting => "interpret_program"
  | .classes => "class_runtime"
  | .functions => "builtins_via_interpreter"
  | .including => "include_library"

def Workload.ofName? (name : String) : Option Workload :=
  Workload.all.find? (·.name == name)

def sizeStatement (size : Int) : String :=
  "N = " ++ Number.wholeText size ++ ";\n"

def globalValue (name : String) : Action Value := do
  return ((← code).lookup globalScope name).getD .null

/-- Scans the sample: the number of tokens, and the first and the last of them. -/
def scanSample (copies : Nat) : Action Value := do
  match scan (sampleProgram copies) with
  | .error e => fail (.scan e)
  | .ok tokens =>
      let ends := [tokens.head?, tokens.getLast?].filterMap id
      return .tuple [.int tokens.length, ← arrayOf (ends.map fun t => .text t.shown)]

/-- Parses the sample: the numbers of its statements and of its includes. -/
def parseSample (copies : Nat) : Action Value := do
  let p ← load (sampleProgram copies)
  return .tuple [.int p.statements.length, .int p.includes.length]

/-- Runs the sample and calls methods of its objects: what they return, and the object. -/
def interpretSample (size : Int) : Action Value := do
  beginSession
  discard <| runSource (sampleProgram 1)
  discard <| runSource (sizeStatement size ++ sampleLoop)
  return .tuple [← globalValue "acc", .text (← text (← globalValue "d"))]

/-- Makes objects and calls their methods: the sum of what they return. -/
def runClasses (size : Int) : Action Value := do
  beginSession
  discard <| runSource (sizeStatement size ++ classProgram)
  globalValue "total"

/-- Calls functions: the number of results, and the number of items they work on. -/
def runFunctions (size : Int) : Action Value := do
  beginSession
  discard <| runSource (sizeStatement size ++ functionCalls)
  let results ← length (← globalValue "results")
  let items ← length (← globalValue "arr")
  return .tuple [.int results, .int items, ← globalValue "N"]

/-- Includes a script and calls its functions: the sum of what one returns, and what the other
returns. -/
def runInclude (size : Int) : Action Value := do
  makeDirectories "lib"
  writeText "lib/sample.zen" libraryScript
  beginSession
  discard <| runSource (".include <lib/sample>\n" ++ sizeStatement size ++ libraryProgram)
  return .tuple [← globalValue "total", ← globalValue "greeting"]

def Workload.run (w : Workload) (size : Int) : Action Value :=
  match w with
  | .scanning => scanSample size.toNat
  | .parsing => parseSample size.toNat
  | .interpreting => interpretSample size
  | .classes => runClasses size
  | .functions => runFunctions size
  | .including => runInclude size

end ScriptLang.Benchmark
