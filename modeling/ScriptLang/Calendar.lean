import ScriptLang.Number.Binary64

/-!
# Dates

The calendar date and time of day of a number of seconds since the start of 1970.
-/

namespace ScriptLang

structure Moment where
  year : Int
  month : Nat
  day : Nat
  hour : Nat
  minute : Nat
  second : Nat
deriving DecidableEq, Repr

/-- The year, month and day of a number of days since the start of 1970. Years are counted from the
first of March, so that the leap day is the last day of its year, in eras of 400 years. -/
def civilDate (days : Int) : Int × Nat × Nat :=
  let z := days + 719468
  let era := z.fdiv 146097
  let dayOfEra := (z - era * 146097).toNat
  let yearOfEra := (dayOfEra - dayOfEra / 1460 + dayOfEra / 36524 - dayOfEra / 146096) / 365
  let dayOfYear := dayOfEra - (365 * yearOfEra + yearOfEra / 4 - yearOfEra / 100)
  let shifted := (5 * dayOfYear + 2) / 153
  let day := dayOfYear - (153 * shifted + 2) / 5 + 1
  let month := if shifted < 10 then shifted + 3 else shifted - 9
  let year := (yearOfEra : Int) + era * 400 + (if month ≤ 2 then 1 else 0)
  (year, month, day)

def Moment.ofSeconds (n : Int) : Moment :=
  let days := n.fdiv 86400
  let rest := (n - days * 86400).toNat
  let (year, month, day) := civilDate days
  { year, month, day, hour := rest / 3600, minute := rest / 60 % 60, second := rest % 60 }

/-- The moment of a clock, whose fraction of a second does not count. -/
def Moment.ofClock (x : Float) : Moment :=
  Moment.ofSeconds ((Number.floor x).getD 0)

def twoDigits (n : Nat) : String :=
  if n < 10 then s!"0{n}" else s!"{n}"

def Moment.text (m : Moment) : String :=
  s!"{m.year}-" ++ twoDigits m.month ++ "-" ++ twoDigits m.day ++ " " ++ twoDigits m.hour ++ ":"
    ++ twoDigits m.minute ++ ":" ++ twoDigits m.second

end ScriptLang
