import ScriptLang.Proofs.Evaluation

/-!
# Rounds of loops

A loop repeats a round as long as the round says so. `Rounds` counts the rounds after which it went
on; the loop ends as the first round does that says no or ends early (`repeatWhile_eq_error_iff`).
The loops of the language are written here with one name for each kind of round.
-/

namespace ScriptLang

open ScriptLang.Action

variable {α β : Type} {d n : Nat} {scope : ScopeId} {w w' : World} {s : Signal}

namespace Action

/-- A sequence ends in a signal in its first part or after a value of that. -/
theorem bind_eq_error_iff {x : Action α} {f : α → Action β} : (x >>= f) w = .error s w' ↔
    x w = .error s w' ∨ ∃ a w₁, x w = .ok a w₁ ∧ f a w₁ = .error s w' := by
  cases hx : x w with
  | ok a w₁ =>
    rw [bind_ok hx]
    exact ⟨fun h => .inr ⟨a, w₁, rfl, h⟩, by
      rintro (h | ⟨b, w₂, h, hf⟩)
      · cases h
      · cases h
        exact hf⟩
  | error s₁ w₁ =>
    rw [bind_error hx]
    exact ⟨fun h => by cases h; exact .inl rfl, by
      rintro (h | ⟨b, w₂, h, -⟩)
      · cases h
        rfl
      · cases h⟩

/-- What only drops the value of an action ends in the signals of the action. -/
theorem seq_pure_eq_error_iff {x : Action α} {f : α → β} :
    (x >>= fun a => pure (f a)) w = .error s w' ↔ x w = .error s w' := by
  rw [bind_eq_error_iff]
  exact ⟨fun h => h.elim id nofun, .inl⟩

theorem discard_eq (x : Action α) : discard x = (x >>= fun _ => pure ()) :=
  map_eq_pure_bind (fun _ => PUnit.unit) x

theorem discard_eq_error_iff {x : Action α} : discard x w = .error s w' ↔ x w = .error s w' := by
  rw [discard_eq, seq_pure_eq_error_iff]

end Action

/-! ## Repetitions -/

/-- From one world to another by so many rounds after each of which a loop goes on. -/
inductive Rounds (round : Action Bool) : Nat → World → World → Prop
  | none (w : World) : Rounds round 0 w w
  | next {k : Nat} {w w₁ w' : World} :
      round w = .ok true w₁ → Rounds round k w₁ w' → Rounds round (k + 1) w w'

/-- A loop ends in a signal other than an interrupt exactly when one of its rounds does. -/
theorem repeatWhile_eq_error_iff {round : Action Bool} (hs : s ≠ .interrupt) :
    repeatWhile round n w = .error s w' ↔
      ∃ k < n, ∃ w₁, Rounds round k w w₁ ∧ round w₁ = .error s w' := by
  induction n generalizing w with
  | zero =>
    refine ⟨fun h => ?_, fun ⟨k, hk, _⟩ => absurd hk (Nat.not_lt_zero k)⟩
    cases h
    exact absurd rfl hs
  | succ n ih =>
    rw [repeatWhile, bind_eq_error_iff]
    constructor
    · rintro (h | ⟨goes, w₁, hround, h⟩)
      · exact ⟨0, Nat.zero_lt_succ n, w, .none w, h⟩
      · cases goes with
        | false => cases h
        | true =>
          obtain ⟨k, hk, w₂, hrounds, hlast⟩ := ih.1 h
          exact ⟨k + 1, Nat.succ_lt_succ hk, w₂, .next hround hrounds, hlast⟩
    · rintro ⟨k, hk, w₂, hrounds, hlast⟩
      cases hrounds with
      | none => exact .inl hlast
      | next hround hrounds =>
        exact .inr ⟨true, _, hround, ih.2 ⟨_, Nat.lt_of_succ_lt_succ hk, _, hrounds, hlast⟩⟩

/-! ## The rounds of each kind of loop -/

/-- Whether an expression holds. -/
def holds (d : Nat) (scope : ScopeId) (e : Expr) : Action Bool := do
  truthy (← evaluate d scope e)

/-- Whether an expression holds; one that is absent does. -/
def holds? (d : Nat) (scope : ScopeId) (e : Option Expr) : Action Bool :=
  match e with
  | some e => holds d scope e
  | none => return true

/-- Evaluates an expression, if there is one. -/
def evaluate? (d : Nat) (scope : ScopeId) (e : Option Expr) : Action Unit :=
  e.forM fun e => discard <| evaluate d scope e

def whileRound (d : Nat) (scope : ScopeId) (c : Expr) (body : List Stmt) : Action Bool := do
  if ← holds d scope c then loopBody (executeAll d scope body) else return false

def doRound (d : Nat) (scope : ScopeId) (body : List Stmt) (c : Expr) : Action Bool := do
  if ← loopBody (executeAll d scope body) then holds d scope c else return false

theorem execute_while (c : Expr) (body : List Stmt) : execute (d + 1) scope (.while c body) = do
    repeatWhile (whileRound d scope c body) loopLimit
    return .null := by
  rw [execute]
  unfold whileRound holds
  simp only [bind_assoc]

theorem execute_doWhile (body : List Stmt) (c : Expr) : execute (d + 1) scope (.doWhile body c) = do
    repeatWhile (doRound d scope body c) loopLimit
    return .null := by
  rw [execute]
  rfl

theorem execute_for (init c step : Option Expr) (body : List Stmt) :
    execute (d + 1) scope (.for init c step body) = do
      evaluate? d scope init
      repeatWhile (forRound (holds? d scope c) (executeAll d scope body)
        (evaluate? d scope step)) loopLimit
      return .null := by
  rw [execute.eq_def]
  unfold evaluate? holds?
  cases c <;> rfl

theorem execute_cond (c : Expr) (thenBody : List Stmt) (elseBody : Option (List Stmt)) :
    execute (d + 1) scope (.cond c thenBody elseBody) = do
      if ← holds d scope c then executeAll d scope thenBody else elseBody.forM (executeAll d scope)
      return .null := by
  rw [execute.eq_def]
  unfold holds
  simp only [bind_assoc]
  refine congrArg _ (funext fun v => congrArg _ (funext fun b => ?_))
  cases b with
  | true => rfl
  | false =>
    cases elseBody with
    | none => rfl
    | some body => rfl

end ScriptLang
