import ScriptLang.Proofs.IndexAssignment
import ScriptLang.Proofs.Persistence

/-!
# Private members

Who may use a member of a class is looked at in one place only, the call of a method. Properties are
read and assigned from everywhere, private or not.
-/

namespace ScriptLang

open ScriptLang.Action

variable {args : List Value} {m : MethodDef (List Stmt)} {d : Nat} {scope : ScopeId} {w' : World}

/-! ## Taking members -/

/-- A world after a method was taken from an instance, which makes a function for it. -/
def World.withMethod (w : World) (l : Loc) (name : String) (inside : Bool) : World :=
  w.withHeap (w.heap.alloc (.derived (.method l name inside))).2

theorem evaluate_member {o : Expr} {name : String} {v : Value}
    {w w₁ : World} (ho : o ≠ .this) (hrun : evaluate d scope o w = .ok v w₁) :
    evaluate (d + 1) scope (.member o name) w = member v name false w₁ := by
  rw [evaluate]
  · exact bind_ok hrun
  · exact ho

theorem evaluate_member_this {name : String} {v : Value} {w : World}
    (hthis : w.code.lookup scope "this" = some v) :
    evaluate (d + 2) scope (.member .this name) w = member v name true w := by
  have hrun : evaluate (d + 1) scope .this w = .ok v w := by
    rw [evaluate]
    exact lookup_ok hthis
  rw [evaluate]
  exact bind_ok hrun

theorem modify_eq_setIfInBounds {α : Type} {xs : Array α} {i : Nat} {a : α} (h : xs[i]? = some a)
    (f : α → α) : xs.modify i f = xs.setIfInBounds i (f a) := by
  obtain ⟨hi, -⟩ := Array.getElem?_eq_some_iff.1 h
  apply Array.ext_getElem?
  intro j
  rw [Array.getElem?_modify, Array.getElem?_setIfInBounds]
  by_cases hj : i = j
  · subst hj
    rw [if_pos rfl, if_pos rfl, if_pos hi, h, Option.map_some]
  · rw [if_neg hj, if_neg hj]

section

variable {w : World} {l cls : Loc} {className name : String} {props : List (String × Value)}

theorem Heap.instanceAt_of_cell {h : Heap}
    (hl : h.cells[l]? = some (.instance cls className props)) : h.instanceAt l = (cls, props) := by
  simp [Heap.instanceAt, hl]

theorem member_property (hl : w.heap.cells[l]? = some (.instance cls className props)) {v : Value}
    (hv : props.lookup name = some v) (inside : Bool) :
    member (.instance l) name inside w = .ok v w := by
  apply (member_instance l name inside w).1
  rwa [Heap.instanceAt_of_cell hl]

theorem member_method (hl : w.heap.cells[l]? = some (.instance cls className props))
    (hnone : props.lookup name = none) (inside : Bool) :
    member (.instance l) name inside w = .ok (.derived w.heap.cells.size)
      (w.withMethod l name inside) := by
  rw [member_instance_eq, Heap.instanceAt_of_cell hl, hnone]
  rfl

theorem setMember_instance_eq (l : Loc) (name : String) (v : Value) (w : World) :
    setMember (.instance l) name v w =
      (if ((w.code.property? (w.heap.instanceAt l).1 name).any fun p => p.access == .ownClass) &&
        !true then fail (.privateProperty name)
        else modifyCell l fun
          | .instance cls className props => .instance cls className (putField name v props)
          | c => c : Action Unit) w := rfl

theorem setMember_instance (hl : w.heap.cells[l]? = some (.instance cls className props))
    (v : Value) :
    setMember (.instance l) name v w =
      .ok () (w.withHeap (w.heap.set l (.instance cls className (putField name v props)))) := by
  rw [setMember_instance_eq, Bool.not_true, Bool.and_false, if_neg Bool.false_ne_true]
  refine congrArg (fun cells => EStateM.Result.ok () (w.withHeap ⟨cells⟩)) ?_
  exact modify_eq_setIfInBounds hl _

/-! ## Calling methods -/

/-- The call of a method that was taken from an instance. Here alone access is looked at. -/
theorem apply_method {k : Loc} {inside : Bool}
    (hk : w.heap.cells[k]? = some (.derived (.method l name inside)))
    (hl : w.heap.cells[l]? = some (.instance cls className props))
    (hm : w.code.method? false cls name args.length = some m) (n : Nat) :
    apply (n + 2) (.derived k) args w =
      if m.access == .ownClass && !inside then .error (.fault (.privateMethod name)) w
      else runMethod n (some l) m args w := by
  have hderived : w.heap.derivedAt? k = some (.method l name inside) := by
    simp [Heap.derivedAt?, hk]
  have hheap : (liftM Action.heap : Action Heap) w = .ok w.heap w := rfl
  have happly : apply (n + 2) (.derived k) args w = callMethod (n + 1) l name args inside w := by
    rw [apply]
    refine (bind_ok hheap).trans ?_
    rw [hderived]
  have hcode : code w = .ok w.code w := rfl
  rw [happly, callMethod]
  refine (bind_ok hheap).trans ((bind_ok hcode).trans ?_)
  rw [Heap.instanceAt_of_cell hl]
  simp only [hm]
  split <;> rfl

/-- A method that was taken from an instance can be called at any time later: the function, the
instance and the method are still there. -/
theorem apply_taken {inside : Bool} (hl : w.heap.cells[l]? = some (.instance cls className props))
    (hm : w.code.method? false cls name args.length = some m)
    (hlasts : (w.withMethod l name inside).Lasts w') (n : Nat) :
    apply (n + 2) (.derived w.heap.cells.size) args w' =
      if m.access == .ownClass && !inside then .error (.fault (.privateMethod name)) w'
      else runMethod n (some l) m args w' := by
  have hcells : (w.withMethod l name inside).heap.cells =
      w.heap.cells.push (.derived (.method l name inside)) := rfl
  obtain ⟨hlt, -⟩ := Array.getElem?_eq_some_iff.1 hl
  have hk := hlasts.methodCell (k := w.heap.cells.size) (by rw [hcells, Array.getElem?_push_size])
  obtain ⟨props', hl'⟩ := hlasts.instanceCell (by rw [hcells, Effect.getElem?_push hlt, hl])
  exact apply_method hk hl' (hlasts.method? hm) n

theorem apply_taken_private (hl : w.heap.cells[l]? = some (.instance cls className props))
    (hm : w.code.method? false cls name args.length = some m) (hprivate : m.access = .ownClass)
    (hlasts : (w.withMethod l name false).Lasts w') (n : Nat) :
    apply (n + 2) (.derived w.heap.cells.size) args w' =
      .error (.fault (.privateMethod name)) w' := by
  rw [apply_taken hl hm hlasts n, hprivate]
  rfl

theorem apply_taken_inside (hl : w.heap.cells[l]? = some (.instance cls className props))
    (hm : w.code.method? false cls name args.length = some m)
    (hlasts : (w.withMethod l name true).Lasts w') (n : Nat) :
    apply (n + 2) (.derived w.heap.cells.size) args w' = runMethod n (some l) m args w' := by
  rw [apply_taken hl hm hlasts n, Bool.not_true, Bool.and_false, if_neg Bool.false_ne_true]

end

theorem length_of_mapM {α β : Type} {xs : List α} {f : α → Action β} {ys : List β} {w : World}
    (h : xs.mapM f w = .ok ys w') : ys.length = xs.length := by
  induction xs generalizing ys w with
  | nil =>
    cases h
    rfl
  | cons x xs ih =>
    rw [List.mapM_cons] at h
    obtain ⟨y, w₁, -, h⟩ := bind_eq_ok h
    obtain ⟨ys, w₂, hrest, h⟩ := bind_eq_ok h
    cases h
    rw [List.length_cons, List.length_cons, ih hrest]

theorem evaluateAll_length {xs : List Expr} {vs : List Value} {w : World}
    (h : evaluateAll (d + 1) scope xs w = .ok vs w') : vs.length = xs.length := by
  rw [evaluateAll] at h
  exact length_of_mapM h

/-- The call of a member evaluates the arguments after the member was taken. -/
theorem evaluate_call {f : Expr} {xs : List Expr} {k : Loc} {w w₁ : World}
    (hf : evaluate d scope f w = .ok (.derived k) w₁) : evaluate (d + 1) scope (.call f xs) w =
      (evaluateAll d scope xs >>= apply d (.derived k)) w₁ := by
  rw [evaluate]
  exact bind_ok hf

/-- What privacy protects. Let `o`, which is not `this`, stand for an instance. Its properties are
read and assigned, whether private or not. A private method of its class or the nearest ancestor
that has one of that name can be taken from it, and is refused whenever it is called, now or later
in the program; a call of it evaluates the arguments and then fails in the world that these left, so
its body does not run. Taken from `this`, it runs. -/
theorem only_calls_respect_privacy {d : Nat} {scope : ScopeId} {o : Expr} {l cls : Loc}
    {className : String} {props : List (String × Value)} {w w₁ : World} (name : String)
    (ho : o ≠ .this) (hrun : evaluate (d + 1) scope o w = .ok (.instance l) w₁)
    (hl : w₁.heap.cells[l]? = some (.instance cls className props)) :
    -- a property that the instance has is read
    (∀ v, props.lookup name = some v → evaluate (d + 2) scope (.member o name) w = .ok v w₁) ∧
    -- and any property is assigned, which changes nothing else
    (∀ e v w₂, evaluate (d + 1) scope e w₁ = .ok v w₂ → ∃ props₂,
      w₂.heap.cells[l]? = some (.instance cls className props₂) ∧
      evaluate (d + 2) scope (.assignMember o name e) w =
        .ok v (w₂.withHeap (w₂.heap.set l (.instance cls className (putField name v props₂))))) ∧
    -- a private method is taken
    (props.lookup name = none → ∀ (count : Nat) (m : MethodDef (List Stmt)),
      w₁.code.method? false cls name count = some m → m.access = .ownClass →
      (Fault.privateMethod name).kind = .attribute ∧
      ∃ k, evaluate (d + 2) scope (.member o name) w =
        .ok (.derived k) (w₁.withMethod l name false) ∧
        -- and refused, whatever the program did since
        (∀ (n : Nat) (args : List Value) (w' : World), args.length = count →
          (w₁.withMethod l name false).Leads w' →
          apply (n + 2) (.derived k) args w' = .error (.fault (.privateMethod name)) w') ∧
        -- so the call ends as its arguments do or is refused after them
        (∀ xs : List Expr, xs.length = count →
          (∃ args w₂, evaluateAll (d + 2) scope xs (w₁.withMethod l name false) = .ok args w₂ ∧
            evaluate (d + 3) scope (.call (.member o name) xs) w =
              .error (.fault (.privateMethod name)) w₂) ∨
          ∃ s w₂, evaluateAll (d + 2) scope xs (w₁.withMethod l name false) = .error s w₂ ∧
            evaluate (d + 3) scope (.call (.member o name) xs) w = .error s w₂) ∧
        -- through `this` the method runs
        ∀ own, w₁.code.lookup own "this" = some (.instance l) → ∀ xs args w₂, xs.length = count →
          evaluateAll (d + 2) own xs (w₁.withMethod l name true) = .ok args w₂ →
          evaluate (d + 3) own (.call (.member .this name) xs) w₁ =
            runMethod d (some l) m args w₂) := by
  refine ⟨fun v hv => ?_, fun e v w₂ he => ?_, fun hnone count m hm hprivate => ?_⟩
  · rw [evaluate_member ho hrun, member_property hl hv]
  · have hlasts := lasts_evaluate (d + 1) scope e w₁
    rw [Action.final, he] at hlasts
    obtain ⟨props₂, hl₂⟩ := hlasts.instanceCell hl
    refine ⟨props₂, hl₂, ?_⟩
    rw [evaluate]
    exact (bind_ok hrun).trans ((bind_ok he).trans (bind_ok (setMember_instance hl₂ v)))
  · have htaken : evaluate (d + 2) scope (.member o name) w =
        .ok (.derived w₁.heap.cells.size) (w₁.withMethod l name false) := by
      rw [evaluate_member ho hrun, member_method hl hnone]
    refine ⟨rfl, w₁.heap.cells.size, htaken, fun n args w' hcount hleads => ?_, fun xs hcount => ?_,
      fun own hthis xs args w₂ hcount hargs => ?_⟩
    · subst hcount
      exact apply_taken_private hl hm hprivate hleads.lasts n
    · rw [evaluate_call htaken]
      have hlasts := lasts_evaluateAll (d + 2) scope xs (w₁.withMethod l name false)
      cases hargs : evaluateAll (d + 2) scope xs (w₁.withMethod l name false) with
      | ok args w₂ =>
        rw [Action.final, hargs] at hlasts
        rw [← hcount, ← evaluateAll_length hargs] at hm
        exact .inl
          ⟨args, w₂, rfl, (bind_ok hargs).trans (apply_taken_private hl hm hprivate hlasts d)⟩
      | error s w₂ => exact .inr ⟨s, w₂, rfl, bind_error hargs⟩
    · have hinside : evaluate (d + 2) own (.member .this name) w₁ =
          .ok (.derived w₁.heap.cells.size) (w₁.withMethod l name true) := by
        rw [evaluate_member_this hthis, member_method hl hnone]
      have hlasts := lasts_evaluateAll (d + 2) own xs (w₁.withMethod l name true)
      rw [Action.final, hargs] at hlasts
      rw [← hcount, ← evaluateAll_length hargs] at hm
      rw [evaluate_call hinside]
      exact (bind_ok hargs).trans (apply_taken_inside hl hm hlasts d)

/-- A world with an instance `a` of a class whose property `balance` and method `audit` are
private. -/
def account : World where
  heap := { cells := #[.instance 0 "Account" [("balance", .int 5)]] }
  code := {
    scopes := #[{ vars := ({} : Std.HashMap String Value).insert "a" (.instance 0) }]
    classes := #[{
      name := "Account", parent := none
      methods := [⟨"audit", [], [.return (some (.member .this "balance"))], .ownClass, false⟩]
      properties := [⟨"balance", .ownClass, false, .declared 1 0⟩] }] }

theorem account_instance :
    account.heap.cells[0]? = some (.instance 0 "Account" [("balance", .int 5)]) :=
  rfl

theorem account_evaluate (d : Nat) :
    evaluate (d + 1) globalScope (.name "a") account = .ok (.instance 0) account := by
  apply evaluate_name
  simp [Code.lookup, Code.lookupFrom, account, globalScope]

/-- The private method is refused to the program. -/
theorem account_audit_refused :
    account.code.method? false 0 "audit" 0 =
      some ⟨"audit", [], [.return (some (.member .this "balance"))], .ownClass, false⟩ ∧
    evaluate 9 globalScope (.call (.member (.name "a") "audit") []) account =
      .error (.fault (.privateMethod "audit")) (account.withMethod 0 "audit" false) := by
  have hargs : evaluateAll 8 globalScope [] (account.withMethod 0 "audit" false) =
      .ok [] (account.withMethod 0 "audit" false) := by
    rw [evaluateAll]
    rfl
  have ho : Expr.name "a" ≠ .this := nofun
  obtain ⟨-, -, hcalls⟩ := only_calls_respect_privacy "audit" ho (account_evaluate 6)
    account_instance
  obtain ⟨-, k, -, -, hcall, -⟩ := hcalls rfl 0 _ rfl rfl
  refine ⟨rfl, ?_⟩
  rcases hcall [] rfl with ⟨args, w₂, hdone, hrefused⟩ | ⟨s, w₂, hfailed, -⟩
  · rw [hargs] at hdone
    cases hdone
    exact hrefused
  · rw [hargs] at hfailed
    contradiction

/-- The private property is read and assigned by the program. -/
theorem account_balance_open :
    (∃ p, account.code.property? 0 "balance" = some p ∧ p.access = .ownClass) ∧
    evaluate 9 globalScope (.member (.name "a") "balance") account = .ok (.int 5) account ∧
    ∃ w, evaluate 9 globalScope (.assignMember (.name "a") "balance" (.literal (.whole 7)))
        account = .ok (.int 7) w ∧
      w.heap.cells[0]? = some (.instance 0 "Account" [("balance", .int 7)]) := by
  refine ⟨⟨_, rfl, rfl⟩, ?_, ?_⟩
  · have ho : Expr.name "a" ≠ .this := nofun
    rw [evaluate_member ho (account_evaluate 7)]
    exact member_property account_instance rfl false
  · let changed : Cell := .instance 0 "Account" [("balance", .int 7)]
    refine ⟨account.withHeap (account.heap.set 0 changed), ?_, rfl⟩
    rw [evaluate]
    refine (bind_ok (account_evaluate 7)).trans ?_
    refine (bind_ok (evaluate_literal 7 globalScope (.whole 7) account)).trans ?_
    exact bind_ok (setMember_instance account_instance (.int 7))

end ScriptLang
