import ScriptLang.Proofs.Evaluation

/-!
# How functions and static methods are called

Both open a scope, bind their parameters there and run their body in it. The scope of a function
stands inside the one that the function was written in. That of a static method stands inside the
global one, wherever its class was written. Where every parameter gets an argument, that is the only
difference; arguments that are left over are ignored.
-/

namespace ScriptLang

open ScriptLang.Action

/-- The function with the parameters and body of a method, in the global scope. -/
def MethodDef.toClosure (m : MethodDef (List Stmt)) : Closure :=
  { name := none, params := m.params, body := m.body, scope := globalScope }

theorem bindAll_eq_bindGiven (scope : ScopeId) {xs : List String} {vs : List Value}
    (h : xs.length ≤ vs.length) : bindAll scope xs vs = bindGiven scope xs vs := by
  induction xs generalizing vs with
  | nil => rfl
  | cons x xs ih =>
    cases vs with
    | nil => simp at h
    | cons v vs =>
      rw [bindAll, bindGiven, ← ih (Nat.le_of_succ_le_succ h)]
      rfl

variable {d : Nat} {m : MethodDef (List Stmt)} {w : World}

theorem runMethod_none {args : List Value} (h : m.params.length ≤ args.length) :
    runMethod (d + 1) none m args = m.toClosure.call d args := by
  rw [runMethod]
  unfold Closure.call
  simp only [bindAll_eq_bindGiven _ h]
  rfl

/-- The call of a static method that was taken from a class runs what the class offers. -/
theorem apply_takenStatic {k owner : Loc} {name : String} {args : List Value}
    (hk : w.heap.derivedAt? k = some (.staticMethod owner name))
    (hm : w.code.method? true owner name args.length = some m) :
    apply (d + 2) (.derived k) args w = runMethod d none m args w := by
  have hheap : (liftM heap : Action Heap) w = .ok w.heap w := rfl
  have hcall : apply (d + 2) (.derived k) args w = callStatic (d + 1) owner name args w := by
    rw [apply]
    refine (bind_ok hheap).trans ?_
    simp only [hk]
  have hcode : code w = .ok w.code w := rfl
  rw [hcall, callStatic]
  refine (bind_ok hcode).trans ?_
  simp only [hm]

theorem apply_staticMethod {k owner : Loc} {name : String} {args : List Value}
    (hk : w.heap.derivedAt? k = some (.staticMethod owner name))
    (hm : w.code.method? true owner name args.length = some m) (h : m.params.length ≤ args.length) :
    apply (d + 3) (.derived k) args w = m.toClosure.call d args w := by
  rw [apply_takenStatic hk hm, runMethod_none h]

/-! ## What a body sees -/

/-- What the parameters `xs` are bound to by arguments; the last of two parameters of one name
counts. -/
def bound : List String → List Value → String → Option Value
  | x :: xs, v :: vs, y => (bound xs vs y).or (if x = y then some v else none)
  | _, _, _ => none

theorem bound_take (xs : List String) (vs : List Value) (y : String) :
    bound xs (vs.take xs.length) y = bound xs vs y := by
  induction xs generalizing vs with
  | nil => cases vs <;> rfl
  | cons x xs ih =>
    cases vs with
    | nil => rfl
    | cons v vs => rw [List.length_cons, List.take_succ_cons, bound, bound, ih]

theorem setVar_push (c : Code) {before : Array Scope} {scope : Scope} (x : String) (v : Value)
    (hc : c.scopes = before.push scope) :
    c.setVar before.size x v =
      { c with scopes := before.push { scope with vars := scope.vars.insert x v } } := by
  unfold Code.setVar
  rw [hc]
  congr 1
  ext1
  · simp
  · next i h₁ h₂ =>
    rw [Array.getElem_modify, Array.getElem_push, Array.getElem_push]
    rw [Array.size_push] at h₂
    by_cases hi : i < before.size
    · rw [dif_pos hi, dif_pos hi, if_neg (by omega)]
    · rw [dif_neg hi, dif_neg hi, if_pos (by omega)]

/-- Binding parameters in a new scope sets its variables and nothing else. -/
theorem bindGiven_newScope (xs : List String) (vs : List Value) (w : World) {before : Array Scope}
    {scope : Scope} (hw : w.code.scopes = before.push scope) :
    ∃ scope', scope'.parent = scope.parent ∧
      (∀ y, scope'.vars[y]? = (bound xs vs y).or scope.vars[y]?) ∧
      bindGiven before.size xs vs w =
        .ok () { w with code := { w.code with scopes := before.push scope' } } := by
  induction xs generalizing vs w scope with
  | nil =>
    refine ⟨scope, rfl, fun y => rfl, ?_⟩
    rw [← hw]
    rfl
  | cons x xs ih =>
    cases vs with
    | nil =>
      refine ⟨scope, rfl, fun y => rfl, ?_⟩
      rw [← hw]
      rfl
    | cons v vs =>
      -- the first parameter is set in the scope, the others in what that gives
      have hset : assign before.size x v w = .ok () { w with code := { w.code with
          scopes := before.push { scope with vars := scope.vars.insert x v } } } := by
        rw [← setVar_push w.code x v hw]
        rfl
      obtain ⟨scope', hparent, hvars, hrun⟩ := ih vs { w with code := { w.code with
        scopes := before.push { scope with vars := scope.vars.insert x v } } } rfl
      refine ⟨scope', hparent, fun y => ?_, (bind_ok hset).trans hrun⟩
      rw [hvars y, bound, Std.HashMap.getElem?_insert, Option.or_assoc]
      by_cases hy : x = y <;> simp [hy]

/-- The world with one more scope. -/
def World.pushScope (w : World) (scope : Scope) : World :=
  { w with code := { w.code with scopes := w.code.scopes.push scope } }

/-- A call runs the body in one new scope, inside the scope of the function, that has the bound
parameters. -/
theorem Closure.call_eq (c : Closure) (d : Nat) (args : List Value) (w : World) :
    ∃ scope : Scope, scope.parent = some c.scope ∧ (∀ y, scope.vars[y]? = bound c.params args y) ∧
      c.call d args w = catchReturn (executeAll d w.code.scopes.size c.body)
        (w.pushScope scope) := by
  obtain ⟨scope, hparent, hvars, hrun⟩ :=
    bindGiven_newScope c.params args (w.pushScope { parent := some c.scope }) rfl
  refine ⟨scope, hparent, fun y => by simpa using hvars y, ?_⟩
  have hopen :
      openScope c.scope w = .ok w.code.scopes.size (w.pushScope { parent := some c.scope }) :=
    rfl
  exact (bind_ok hopen).trans (bind_ok hrun)

/-- A function and a static method with the same parameters and body, called with no argument
missing, run that body in the same world but for the scope that the call opens. In both it has the
parameters, bound to their arguments, and arguments that are left over bind nothing. The one of the
function stands inside the scope the function was written in, that of the method inside the global
scope. So from a function of the global scope the two calls cannot be told apart. -/
theorem static_method_is_called_as_a_global_function {d : Nat} {w : World} {l k owner : Loc}
    {name : String} {c : Closure} {m : MethodDef (List Stmt)} (args : List Value)
    (hc : w.code.closureAt? l = some c) (hk : w.heap.derivedAt? k = some (.staticMethod owner name))
    (hm : w.code.method? true owner name args.length = some m) (hparams : m.params = c.params)
    (hbody : m.body = c.body) (hargs : c.params.length ≤ args.length) :
    (∃ f g : Scope,
      apply (d + 1) (.function l) args w =
        catchReturn (executeAll d w.code.scopes.size c.body) (w.pushScope f) ∧
      apply (d + 3) (.derived k) args w =
        catchReturn (executeAll d w.code.scopes.size c.body) (w.pushScope g) ∧
      f.parent = some c.scope ∧ g.parent = some globalScope ∧
      ∀ y, f.vars[y]? = bound c.params (args.take c.params.length) y ∧ g.vars[y]? = f.vars[y]?) ∧
    (c.scope = globalScope →
      apply (d + 1) (.function l) args w = apply (d + 3) (.derived k) args w) := by
  rw [apply_function hc, apply_staticMethod hk hm (hparams ▸ hargs)]
  refine ⟨?_, fun hglobal => ?_⟩
  · obtain ⟨f, hf, fvars, frun⟩ := c.call_eq d args w
    obtain ⟨g, hg, gvars, grun⟩ := m.toClosure.call_eq d args w
    refine ⟨f, g, frun, hbody ▸ grun, hf, hg, fun y => ⟨?_, ?_⟩⟩
    · rw [fvars y, bound_take]
    · rw [fvars y, gvars y, MethodDef.toClosure, hparams]
  · unfold MethodDef.toClosure
    rw [hparams, hbody, ← hglobal]
    rfl

/-! ## A class written inside a function -/

/-- A world with a global `x`, which is 1, a scope inside the global one with another `x`, which is
2, and one body that returns `x`, as that of a function of the scope `home` and of a static
method. -/
def twoEchoes (home : ScopeId) : World where
  heap := { cells := #[.derived (.staticMethod 0 "m")] }
  code := {
    scopes := #[{ vars := Std.HashMap.ofList [("x", .int 1)] },
      { vars := Std.HashMap.ofList [("x", .int 2)], parent := some globalScope }]
    functions := #[⟨some "f", [], [.return (some (.name "x"))], home⟩]
    classes := #[{ name := "C", parent := none, properties := [], methods :=
      [{ name := "m", params := [], body := [.return (some (.name "x"))], isStatic := true }] }] }

/-- From the global scope the two calls agree. -/
theorem twoEchoes_agree :
    (twoEchoes globalScope).code.closureAt? 0 =
      some ⟨some "f", [], [.return (some (.name "x"))], globalScope⟩ ∧
    apply 9 (.function 0) [.int 3] (twoEchoes globalScope) =
      apply 11 (.derived 0) [.int 3] (twoEchoes globalScope) :=
  ⟨rfl, (static_method_is_called_as_a_global_function [.int 3] rfl rfl rfl rfl rfl
    (by decide)).2 rfl⟩

theorem catchReturn_name {scope : ScopeId} {x : String} {v : Value}
    (h : w.code.lookup scope x = some v) :
    catchReturn (executeAll (d + 3) scope [.return (some (.name x))]) w = .ok v w := by
  have hname : evaluate (d + 1) scope (.name x) w = .ok v w := by
    rw [evaluate]
    exact lookup_ok h
  have hreturn : executeAll (d + 3) scope [.return (some (.name x))] w = .error (.return v) w := by
    have hexecute : execute (d + 2) scope (.return (some (.name x))) w = .error (.return v) w := by
      rw [execute]
      exact (bind_ok hname).trans rfl
    rw [executeAll]
    refine bind_error ?_
    show EStateM.map _ (execute (d + 2) scope (.return (some (.name x)))) w = _
    unfold EStateM.map
    rw [hexecute]
  show EStateM.tryCatch (EStateM.bind _ _) _ w = _
  unfold EStateM.tryCatch EStateM.bind
  rw [hreturn]
  rfl

/-- From the inner scope the function returns the `x` there, and the method the global one. -/
theorem twoEchoes_differ :
    (∃ w, apply 9 (.function 0) [] (twoEchoes 1) = .ok (.int 2) w) ∧
    ∃ w, apply 11 (.derived 0) [] (twoEchoes 1) = .ok (.int 1) w := by
  constructor
  · obtain ⟨f, hparent, hvars, hrun⟩ :=
      Closure.call_eq ⟨some "f", [], [.return (some (.name "x"))], 1⟩ 8 [] (twoEchoes 1)
    refine ⟨_, (apply_function rfl).trans (hrun.trans (catchReturn_name ?_))⟩
    simp [Code.lookup, Code.lookupFrom, World.pushScope, twoEchoes, hparent, hvars, bound]
  · obtain ⟨g, hparent, hvars, hrun⟩ :=
      Closure.call_eq ⟨none, [], [.return (some (.name "x"))], globalScope⟩ 8 [] (twoEchoes 1)
    have hm : (twoEchoes 1).code.method? true 0 "m" ([] : List Value).length =
        some ⟨"m", [], [.return (some (.name "x"))], .everyone, true⟩ := rfl
    refine ⟨_, (apply_staticMethod rfl hm (Nat.le_refl 0)).trans (hrun.trans (catchReturn_name ?_))⟩
    simp [Code.lookup, Code.lookupFrom, World.pushScope, twoEchoes, hparent, hvars, bound,
      globalScope]

end ScriptLang
