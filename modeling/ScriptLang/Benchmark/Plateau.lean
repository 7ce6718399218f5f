/-!
# Plateaus

In a sequence of counts, the smallest one and how many entries follow its first occurrence. A
sequence has levelled off when enough entries follow.
-/

namespace ScriptLang.Benchmark

/-- The smallest entry so far and the number of entries since it was first reached. -/
structure Plateau (α : Type) where
  best : α
  since : Nat
deriving DecidableEq, Repr

variable {α : Type}

/-- Takes one more entry into account: only a smaller one is an improvement. -/
def Plateau.step (count : α → Int) (p : Plateau α) (x : α) : Plateau α :=
  if count x < count p.best then { best := x, since := 0 } else { p with since := p.since + 1 }

def Plateau.ofSequence (count : α → Int) (first : α) (rest : List α) : Plateau α :=
  rest.foldl (Plateau.step count) { best := first, since := 0 }

/-- The plateau of what came before and one more entry. -/
def Plateau.ofHistory (count : α → Int) (history : List α) (last : α) : Plateau α :=
  match history with
  | [] => .ofSequence count last []
  | first :: rest => .ofSequence count first (rest ++ [last])

/-- After how many rounds without improvement a sequence has levelled off. -/
def patience : Nat := 3

def Plateau.reached (p : Plateau α) : Bool :=
  patience ≤ p.since

end ScriptLang.Benchmark
