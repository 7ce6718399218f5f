import ScriptLang.Library.Functions
import ScriptLang.Library.Objects
import ScriptLang.Library.Texts

/-!
# The functions every program has

Conversions and tests of types, and what each of the functions does with its arguments.
-/

namespace ScriptLang.Library

open ScriptLang.Action

/-- A conversion that gives another value for what is not a number. -/
def orElse (r : Except Fault Num) (other : Num) : Routine Value :=
  match r with
  | .ok n => number n
  | .error f => if f.kind = .value then number other else fail f

/-- The name of the type of a value, as programs see it. -/
def typeOf (v : Value) : String :=
  match v with
  | .array _ => "array"
  | .object _ => "object"
  | .null => "null"
  | v => v.typeName

def isNumber : Value → Bool
  | .int _ | .float _ | .nan _ => true
  | _ => false

def ask (prompt : Value) : Routine Value := do
  print (← text prompt)
  return .text (← readLine)

/-- Runs a function that calls no function it is given and makes no class. -/
def runPlain (f : CoreFn) (args : List Value) : Routine Value := do
  let a := args.getD 0 .null
  let b := args.getD 1 .null
  let c := args.getD 2 .null
  match f with
  | .str => return .text (← text a)
  | .int => orElse (Num.whole <$> a.toInt) (.whole 0)
  | .float => orElse (Num.real <$> a.toFloat) (.real 0)
  | .bool => return .bool (← truthy a)
  | .type => return .text (typeOf a)
  | .isNumber => return .bool (isNumber a)
  | .isString => return .bool (a matches .text _)
  | .isArray => return .bool (a matches .array _)
  | .isObject => return .bool (a matches .object _)
  | .isBool => return .bool (a matches .bool _)
  | .isNull => return .bool (a matches .null)
  | .length => return .int (← length a)
  | .push => push a b
  | .pop => pop a
  | .shift => shift a
  | .unshift => unshift a b
  | .slice => slice a b c
  | .indexOf => indexOf a b
  | .includes => return .bool (← contains a b)
  | .reverse => onText reversed a
  | .sort => sort a
  | .join => join a b
  | .upper => onText Text.upper a
  | .lower => onText Text.lower a
  | .trim => onText Text.trim a
  | .split => split a b
  | .replace => replaceText (← text a) b c
  | .startsWith => return .bool (← startsWith (← text a) b)
  | .endsWith => return .bool (← endsWith (← text a) b)
  | .substring => slice (.text (← text a)) b c
  | .charAt => charAt a b
  | .repeat =>
      let s ← text a
      repeated (.text s) (.int (← toInt b))
  | .sum => sum a
  | .avg => avg a
  | .min => extremeItem .lt a
  | .max => extremeItem .gt a
  | .keys => keys a
  | .values => values a
  | .hasKey => hasKey a b
  | .range => range a b c
  | .print =>
      printValues args
      return .null
  | .input => ask a
  | .flatten => flatten a b
  | .chunk => chunk a b
  | .zip => zip args
  | .unique => unique a
  | .compact => compact a
  | .difference => membersOf false a b
  | .intersection => membersOf true a b
  | .union => union a b
  | .capitalize => onText capitalizeFirst a
  | .titleCase => onText Text.titleCase a
  | .count => countIn (← text a) b
  | .padStart => padWith Text.padLeft a b c
  | .padEnd => padWith Text.padRight a b c
  | .truncate => truncate a b c
  | .slugify => onText slug a
  | .contains =>
      let s ← text a
      return .bool (← contains (.text s) b)
  | .merge => merge a b
  | .pick => pick a b
  | .omit => leaveOut a b
  | .entries => entryPairs a
  | .fromEntries => fromEntries a
  | .clamp => clamp a b c
  | .lerp => lerp a b c
  | .random => random a b
  | .randomInt => randomInt a b
  | .round => round a b
  | .abs => abs a
  | .sign => sign a
  | .sleep => sleep a
  | .timestamp => return .float (← get).clock
  | .formatNumber => formatNumber a b
  | .parseJSON => parseJson a
  | .toJSON => toJson a
  | .isEmpty => isEmpty a
  | .isEqual => return .bool (← equal a b)
  | .clone => clone a
  | .take => take a b
  | .drop => drop a b
  | .pluck => pluck a b
  | .sample => sample a b
  | .shuffle => shuffle a
  | .debounce => newDerived (.debounced a b 0)
  | .throttle => newDerived (.throttled a b 0)
  | .memoize => newDerived (.memoized a [])
  | .curry => curry a b
  | .compose => newDerived (.composed args)
  | .pipe => newDerived (.piped args)
  | .noop => return .null
  | .identity => return a
  | .constant => newDerived (.constant a)
  | .negate => newDerived (.negated a)
  | .once => newDerived (.once a false .null)
  | .filter | .map | .forEach | .reduce | .every | .some | .find | .findIndex | .groupBy | .sortBy
  | .takeWhile | .dropWhile | .partition | .countBy | .times | .deepCopy => return .null

def runCore (call : Caller) (f : CoreFn) (args : List Value) : Action Value :=
  let a := args.getD 0 .null
  let b := args.getD 1 .null
  let c := args.getD 2 .null
  match f with
  | .filter => filter call a b
  | .map => map call a b
  | .deepCopy => deepCopy a
  | .forEach => forEach call a b
  | .reduce => reduce call a b c
  | .every => every call a b
  | .some => someOf call a b
  | .find => find call a b
  | .findIndex => findIndex call a b
  | .groupBy => groupBy call a b
  | .sortBy => sortBy call a b
  | .takeWhile => takeWhile call a b
  | .dropWhile => dropWhile call a b
  | .partition => partition call a b
  | .countBy => countBy call a b
  | .times => times call a b
  | f => runPlain f args

end ScriptLang.Library
