import ScriptLang.Proofs.IndexAssignment
import ScriptLang.Proofs.Rounds

/-!
# The operands of logical operators

Both operands of an operator are evaluated, the left one first, before the operator looks at either.
This is so for the logical operators too: the left operand decides which value is given, but not
whether the right one is evaluated. So it guards the right one only where that does nothing
(`both_operands_are_evaluated`).
-/

namespace ScriptLang

open ScriptLang.Action

variable {d : Nat} {scope : ScopeId} {op : BinaryOp} {a b : Expr} {u v : Value} {w w₁ w₂ : World}

/-- Operators that give one of their operands. -/
def BinaryOp.isLogical : BinaryOp → Bool
  | .and | .or => true
  | _ => false

/-- Whether an operator gives a left operand of a truth. -/
def BinaryOp.decidedBy : BinaryOp → Bool → Bool
  | .and, truth => !truth
  | .or, truth => truth
  | _, _ => false

/-- The operand that a logical operator gives. -/
def BinaryOp.choose (op : BinaryOp) (s : Heap) (v u : Value) : Value :=
  if op.decidedBy (s.truthy v) then v else u

theorem applyBinary_logical (hop : op.isLogical = true) (s : Setting) :
    applyBinary op v u s = .ok (op.choose s.heap v u) s := by
  have htruthy : truthy v s = .ok (s.heap.truthy v) s := rfl
  unfold BinaryOp.choose
  cases op with
  | and =>
    refine (bind_ok htruthy).trans ?_
    cases s.heap.truthy v <;> rfl
  | or =>
    refine (bind_ok htruthy).trans ?_
    cases s.heap.truthy v <;> rfl
  | _ => contradiction

/-- The right operand is evaluated whatever the left one is. -/
theorem evaluate_binary (op : BinaryOp) (hleft : evaluate d scope a w = .ok v w₁) :
    evaluate (d + 1) scope (.binary op a b) w =
      (evaluate d scope b >>= fun u => liftM (applyBinary op v u)) w₁ := by
  rw [evaluate]
  exact bind_ok hleft

theorem evaluate_logical (hop : op.isLogical = true) (hleft : evaluate d scope a w = .ok v w₁)
    (hright : evaluate d scope b w₁ = .ok u w₂) :
    evaluate (d + 1) scope (.binary op a b) w = .ok (op.choose w₂.heap v u) w₂ := by
  rw [evaluate_binary op hleft, bind_ok hright,
    Routine.perform_ok (applyBinary_logical hop w₂.toSetting)]

/-- Both operands of a logical operator are evaluated, in order, and what ends either of them ends
the operator. Then it gives the left one if the truth that this has by then decides, else the right
one. So a left operand that decides guards the right one exactly where that ends in a value and
changes nothing; and where the left one does not decide, the operator does what its right operand
does exactly if the left one still does not decide in the end, or both are the same value. -/
theorem both_operands_are_evaluated (d : Nat) (scope : ScopeId) (a b : Expr) (w : World)
    (op : BinaryOp) (hop : op.isLogical = true) :
    (∀ s w₁, evaluate d scope a w = .error s w₁ →
      evaluate (d + 1) scope (.binary op a b) w = .error s w₁) ∧
    ∀ v w₁, evaluate d scope a w = .ok v w₁ →
      (∀ s w₂, evaluate d scope b w₁ = .error s w₂ →
        evaluate (d + 1) scope (.binary op a b) w = .error s w₂) ∧
      (∀ u w₂, evaluate d scope b w₁ = .ok u w₂ →
        evaluate (d + 1) scope (.binary op a b) w = .ok (op.choose w₂.heap v u) w₂) ∧
      (op.decidedBy (w₁.heap.truthy v) = true →
        (evaluate (d + 1) scope (.binary op a b) w = .ok v w₁ ↔
          ∃ u, evaluate d scope b w₁ = .ok u w₁)) ∧
      (op.decidedBy (w₁.heap.truthy v) = false →
        (evaluate (d + 1) scope (.binary op a b) w = evaluate d scope b w₁ ↔
          ∀ u w₂, evaluate d scope b w₁ = .ok u w₂ → op.decidedBy (w₂.heap.truthy v) = false ∨
          v = u)) := by
  refine ⟨fun s w₁ hleft => ?_, fun v w₁ hleft => ?_⟩
  · rw [evaluate]
    exact bind_error hleft
  · have hfails (s : Signal) (w₂ : World) (hright : evaluate d scope b w₁ = .error s w₂) :
        evaluate (d + 1) scope (.binary op a b) w = .error s w₂ := by
      rw [evaluate_binary op hleft, bind_error hright]
    refine ⟨hfails, fun u w₂ hright => evaluate_logical hop hleft hright, fun hdecided => ?_,
      fun hopen => ?_⟩
    · cases hright : evaluate d scope b w₁ with
      | error s w₂ =>
        rw [hfails s w₂ hright]
        exact ⟨nofun, nofun⟩
      | ok u w₂ =>
        rw [evaluate_logical hop hleft hright]
        constructor
        · intro h
          exact ⟨u, by rw [(EStateM.Result.ok.inj h).2]⟩
        · rintro ⟨u', h⟩
          cases h
          rw [BinaryOp.choose, if_pos hdecided]
    · cases hright : evaluate d scope b w₁ with
      | error s w₂ =>
        rw [hfails s w₂ hright]
        exact ⟨fun _ => nofun, fun _ => rfl⟩
      | ok u w₂ =>
        rw [evaluate_logical hop hleft hright, BinaryOp.choose]
        constructor
        · rintro h u' w' ⟨⟩
          cases hlater : op.decidedBy (w₂.heap.truthy v) with
          | false => exact .inl rfl
          | true =>
            rw [hlater, if_pos rfl] at h
            exact .inr (EStateM.Result.ok.inj h).1
        · intro h
          rcases h u w₂ rfl with hlater | rfl
          · rw [hlater]
            rfl
          · rw [ite_self]

/-- A false left operand of `&&` guards a right one that does nothing. -/
theorem false_guards_a_literal :
    let w := oneFunction []
    evaluate 9 globalScope (.binary .and (.literal (.bool false)) (.literal (.whole 1))) w =
      .ok (.bool false) w := by
  intro w
  have h :=
    (both_operands_are_evaluated 8 globalScope (.literal (.bool false)) (.literal (.whole 1)) w
    .and rfl).2 (.bool false) w (evaluate_literal 7 _ _ w)
  exact (h.2.2.1 rfl).2 ⟨_, evaluate_literal 7 _ _ w⟩

/-- It does not guard a right one that fails. -/
theorem false_does_not_guard_a_name :
    let w := oneFunction []
    evaluate 8 globalScope (.literal (.bool false)) w = .ok (.bool false) w ∧
    evaluate 9 globalScope (.binary .and (.literal (.bool false)) (.name "y")) w =
      .error (.fault (.unbound "y")) w := by
  intro w
  have hleft : evaluate 8 globalScope (.literal (.bool false)) w = .ok (.bool false) w :=
    evaluate_literal 7 _ _ w
  have hname : w.code.lookup globalScope "y" = none := by
    simp [w, oneFunction, Code.lookup, Code.lookupFrom, globalScope]
  refine ⟨hleft, ?_⟩
  rw [evaluate_binary .and hleft, evaluate]
  exact bind_error (lookup_error hname)

end ScriptLang
