import ScriptLang.Proofs.Rounds

/-!
# What a return ends

Running a body comes to run the statements in it and in the blocks, branches and loops of it, all in
one scope (`Reaches`). It ends in a return exactly when it comes to a `return` statement, and with
the value of that (`executeAll_eq_return_iff`), since no expression and no call ends in one. So a
return ends the body it is written in and nothing else, and a call takes its value
(`return_ends_its_own_body`).
-/

namespace ScriptLang

open ScriptLang.Action

variable {α : Type} {d : Nat} {scope : ScopeId} {w w' : World} {v : Value}

/-! ## What never ends in a return -/

/-- What is within bounds that allow no return ends in none. -/
theorem Within.no_return {lic : Licence} {own : Own} {jumps : Bool} {x : Action α}
    (h : Within lic own ⟨jumps, false⟩ x) (hw : w.code.Obeys lic) :
    x w ≠ .error (.return v) w' := by
  intro hrun
  have hends := h.ends w hw
  rw [hrun] at hends
  exact Bool.false_ne_true (hends.2.2.2 rfl)

theorem lift_no_return (r : Routine α) : (liftM r : Action α) w ≠ .error (.return v) w' :=
  have h : Within .full .nothing ⟨false, false⟩ (liftM r : Action α) := .lift r
  h.no_return w.code.obeys_full

theorem evaluate_no_return (e : Expr) : evaluate d scope e w ≠ .error (.return v) w' :=
  ((Behaves.all .full d).evaluate scope e e.obeys_full).no_return w.code.obeys_full

theorem holds_no_return (e : Expr) : holds d scope e w ≠ .error (.return v) w' := by
  unfold holds
  rw [Ne, bind_eq_error_iff]
  rintro (h | ⟨u, w₁, -, h⟩)
  · exact evaluate_no_return e h
  · exact lift_no_return _ h

theorem holds?_no_return (e : Option Expr) : holds? d scope e w ≠ .error (.return v) w' := by
  cases e with
  | none => nofun
  | some e => exact holds_no_return e

theorem evaluate?_no_return (e : Option Expr) : evaluate? d scope e w ≠ .error (.return v) w' := by
  cases e with
  | none => nofun
  | some e => exact fun h => evaluate_no_return e (discard_eq_error_iff.1 h)

/-! ## What a loop lets out -/

/-- A loop lets a return of its body through. -/
theorem loopBody_eq_return_iff {body : Action Unit} :
    loopBody body w = .error (.return v) w' ↔ body w = .error (.return v) w' := by
  show EStateM.tryCatch (EStateM.bind body _) _ w = _ ↔ _
  unfold EStateM.tryCatch EStateM.bind
  cases body w with
  | ok a w₁ => exact ⟨nofun, nofun⟩
  | error s w₁ =>
    cases s with
    | «break» => exact ⟨nofun, nofun⟩
    | «continue» => exact ⟨nofun, nofun⟩
    | _ => exact ⟨fun h => by cases h <;> rfl, fun h => by cases h <;> rfl⟩

variable {body : List Stmt} {name : String} {args : List Value}

theorem whileRound_eq_return_iff {c : Expr} : whileRound d scope c body w = .error (.return v) w' ↔
      ∃ w₁, holds d scope c w = .ok true w₁ ∧
      executeAll d scope body w₁ = .error (.return v) w' := by
  unfold whileRound
  rw [bind_eq_error_iff]
  constructor
  · rintro (h | ⟨goes, w₁, hgoes, h⟩)
    · exact absurd h (holds_no_return c)
    · cases goes with
      | false => cases h
      | true => exact ⟨w₁, hgoes, loopBody_eq_return_iff.1 h⟩
  · rintro ⟨w₁, hgoes, h⟩
    exact .inr ⟨true, w₁, hgoes, loopBody_eq_return_iff.2 h⟩

theorem doRound_eq_return_iff {c : Expr} : doRound d scope body c w = .error (.return v) w' ↔
      executeAll d scope body w = .error (.return v) w' := by
  unfold doRound
  rw [bind_eq_error_iff, loopBody_eq_return_iff]
  refine ⟨?_, .inl⟩
  rintro (h | ⟨goes, w₁, -, h⟩)
  · exact h
  · cases goes with
    | false => cases h
    | true => exact absurd h (holds_no_return c)

theorem forRound_eq_return_iff {c step : Option Expr} {body : Action Unit} :
    forRound (holds? d scope c) body (evaluate? d scope step) w = .error (.return v) w' ↔
      ∃ w₁, holds? d scope c w = .ok true w₁ ∧ body w₁ = .error (.return v) w' := by
  unfold forRound
  rw [bind_eq_error_iff]
  constructor
  · rintro (h | ⟨goes, w₁, hgoes, h⟩)
    · exact absurd h (holds?_no_return c)
    · cases goes with
      | false => cases h
      | true =>
        refine ⟨w₁, hgoes, ?_⟩
        rcases bind_eq_error_iff.1 h with h | ⟨more, w₂, -, h⟩
        · exact loopBody_eq_return_iff.1 h
        · cases more with
          | false => cases h
          | true => exact absurd (seq_pure_eq_error_iff.1 h) (evaluate?_no_return step)
  · rintro ⟨w₁, hgoes, h⟩
    exact .inr ⟨true, w₁, hgoes, bind_eq_error_iff.2 (.inl (loopBody_eq_return_iff.2 h))⟩

/-! ## What running a body comes to -/

/-- Running a statement from one world, with `d` levels left inside it, comes to running a body of
it from another. -/
inductive Enters (scope : ScopeId) (d : Nat) : Stmt → World → List Stmt → World → Prop
  | block {body : List Stmt} {w : World} : Enters scope d (.block body) w body w
  | thenBody {c : Expr} {thenBody : List Stmt} {elseBody : Option (List Stmt)} {w w₁ : World} :
      holds d scope c w = .ok true w₁ → Enters scope d (.cond c thenBody elseBody) w thenBody w₁
  | elseBody {c : Expr} {thenBody elseBody : List Stmt} {w w₁ : World} :
      holds d scope c w = .ok false w₁ →
      Enters scope d (.cond c thenBody (some elseBody)) w elseBody w₁
  | whileBody {c : Expr} {body : List Stmt} {k : Nat} {w w₁ w₂ : World} : k < loopLimit →
      Rounds (whileRound d scope c body) k w w₁ → holds d scope c w₁ = .ok true w₂ →
      Enters scope d (.while c body) w body w₂
  | doBody {c : Expr} {body : List Stmt} {k : Nat} {w w₁ : World} : k < loopLimit →
      Rounds (doRound d scope body c) k w w₁ → Enters scope d (.doWhile body c) w body w₁
  | forBody {init c step : Option Expr} {body : List Stmt} {k : Nat} {w w₁ w₂ w₃ : World} :
      k < loopLimit → evaluate? d scope init w = .ok () w₁ →
      Rounds (forRound (holds? d scope c) (executeAll d scope body) (evaluate? d scope step)) k w₁
      w₂ →
      holds? d scope c w₂ = .ok true w₃ → Enters scope d (.for init c step body) w body w₃

/-- Running a body comes to running a statement of it, or of a body in it that is come to, with `k`
levels left for the statement. No scope is opened on the way and no call is made. -/
inductive Reaches (scope : ScopeId) : Nat → List Stmt → World → Nat → Stmt → World → Prop
  | own {d : Nat} {before after : List Stmt} {s : Stmt} {w w₁ : World} :
      executeAll (d + 1) scope before w = .ok () w₁ →
      Reaches scope (d + 1) (before ++ s :: after) w d s w₁
  | inner {d k : Nat} {before after body : List Stmt} {s t : Stmt} {w w₁ w₂ w₃ : World} :
      executeAll (d + 2) scope before w = .ok () w₁ → Enters scope d s w₁ body w₂ →
      Reaches scope d body w₂ k t w₃ → Reaches scope (d + 2) (before ++ s :: after) w k t w₃

theorem executeAll_nil : executeAll (d + 1) scope [] w = .ok () w := by
  rw [executeAll]
  rfl

theorem executeAll_cons (s : Stmt) (body : List Stmt) : executeAll (d + 1) scope (s :: body) =
    (discard (execute d scope s) >>= fun _ => executeAll (d + 1) scope body) := by
  rw [executeAll, executeAll]
  rfl

variable {s : Stmt} {w₁ w₂ : World} {m : MethodDef (List Stmt)}

/-- Running a body comes to its first statement at once. -/
theorem Reaches.first {after : List Stmt} : Reaches scope (d + 1) (s :: after) w d s w :=
  @Reaches.own scope d [] after s w w executeAll_nil

theorem Reaches.inFirst {t : Stmt} {after : List Stmt} {k : Nat}
    (henters : Enters scope d s w body w₁) (h : Reaches scope d body w₁ k t w₂) :
    Reaches scope (d + 2) (s :: after) w k t w₂ :=
  @Reaches.inner scope d k [] after body s t w w w₁ w₂ executeAll_nil henters h

/-- What a `return` statement gives, with `d` levels left for its expression. -/
def Returned (d : Nat) (scope : ScopeId) (e : Option Expr) (w : World) (v : Value) (w' : World) :
    Prop :=
  match e with
  | none => v = .null ∧ w' = w
  | some e => evaluate d scope e w = .ok v w'

theorem execute_return_iff {e : Option Expr} :
    execute (d + 1) scope (.return e) w = .error (.return v) w' ↔ Returned d scope e w v w' := by
  cases e with
  | none =>
    rw [execute]
    exact ⟨fun h => by cases h; exact ⟨rfl, rfl⟩, fun ⟨hv, hw⟩ => by rw [hv, hw]; rfl⟩
  | some e =>
    rw [execute, bind_eq_error_iff]
    constructor
    · rintro (h | ⟨u, w₁, hu, h⟩)
      · exact absurd h (evaluate_no_return e)
      · cases h
        exact hu
    · exact fun h => .inr ⟨v, w', h, rfl⟩

/-- Running a statement ends in a return exactly when it is a `return`, or comes to a body that ends
in one. -/
theorem execute_eq_return_iff : execute (d + 1) scope s w = .error (.return v) w' ↔
    (∃ e, s = .return e ∧ Returned d scope e w v w') ∨
      ∃ body w₁, Enters scope d s w body w₁ ∧
      executeAll d scope body w₁ = .error (.return v) w' := by
  have hne : Signal.return v ≠ .interrupt := nofun
  constructor
  · intro h
    cases s with
    | expr e =>
      rw [execute] at h
      exact absurd h (evaluate_no_return e)
    | block body =>
      rw [execute, seq_pure_eq_error_iff] at h
      exact .inr ⟨body, w, .block, h⟩
    | cond c thenBody elseBody =>
      rw [execute_cond] at h
      rcases bind_eq_error_iff.1 h with h | ⟨goes, w₁, hgoes, h⟩
      · exact absurd h (holds_no_return c)
      · cases goes with
        | true => exact .inr ⟨thenBody, w₁, .thenBody hgoes, seq_pure_eq_error_iff.1 h⟩
        | false =>
          cases elseBody with
          | none => cases h
          | some body => exact .inr ⟨body, w₁, .elseBody hgoes, seq_pure_eq_error_iff.1 h⟩
    | «while» c body =>
      rw [execute_while, seq_pure_eq_error_iff, repeatWhile_eq_error_iff hne] at h
      obtain ⟨k, hk, w₁, hrounds, h⟩ := h
      obtain ⟨w₂, hgoes, h⟩ := whileRound_eq_return_iff.1 h
      exact .inr ⟨body, w₂, .whileBody hk hrounds hgoes, h⟩
    | doWhile body c =>
      rw [execute_doWhile, seq_pure_eq_error_iff, repeatWhile_eq_error_iff hne] at h
      obtain ⟨k, hk, w₁, hrounds, h⟩ := h
      exact .inr ⟨body, w₁, .doBody hk hrounds, doRound_eq_return_iff.1 h⟩
    | «for» init c step body =>
      rw [execute_for] at h
      rcases bind_eq_error_iff.1 h with h | ⟨_, w₁, hinit, h⟩
      · exact absurd h (evaluate?_no_return init)
      · rw [seq_pure_eq_error_iff, repeatWhile_eq_error_iff hne] at h
        obtain ⟨k, hk, w₂, hrounds, h⟩ := h
        obtain ⟨w₃, hgoes, h⟩ := forRound_eq_return_iff.1 h
        exact .inr ⟨body, w₃, .forBody hk hinit hrounds hgoes, h⟩
    | «break» =>
      rw [execute] at h
      cases h
    | «continue» =>
      rw [execute] at h
      cases h
    | «return» e => exact .inl ⟨e, rfl, execute_return_iff.1 h⟩
    | classDef c =>
      rw [execute] at h
      have hdefined :=
        (Behaves.all .full d).defineClass scope c (Stmt.obeys_full (.classDef c) false)
      exact absurd h (hdefined.no_return w.code.obeys_full)
  · rintro (⟨e, rfl, h⟩ | ⟨body, w₁, henters, h⟩)
    · exact execute_return_iff.2 h
    · cases henters with
      | block =>
        rw [execute]
        exact seq_pure_eq_error_iff.2 h
      | thenBody hgoes =>
        rw [execute_cond]
        exact bind_eq_error_iff.2 (.inr ⟨true, _, hgoes, seq_pure_eq_error_iff.2 h⟩)
      | elseBody hgoes =>
        rw [execute_cond]
        exact bind_eq_error_iff.2 (.inr ⟨false, _, hgoes, seq_pure_eq_error_iff.2 h⟩)
      | whileBody hk hrounds hgoes =>
        rw [execute_while, seq_pure_eq_error_iff, repeatWhile_eq_error_iff hne]
        exact ⟨_, hk, _, hrounds, whileRound_eq_return_iff.2 ⟨_, hgoes, h⟩⟩
      | doBody hk hrounds =>
        rw [execute_doWhile, seq_pure_eq_error_iff, repeatWhile_eq_error_iff hne]
        exact ⟨_, hk, _, hrounds, doRound_eq_return_iff.2 h⟩
      | forBody hk hinit hrounds hgoes =>
        rw [execute_for, bind_ok hinit, seq_pure_eq_error_iff, repeatWhile_eq_error_iff hne]
        exact ⟨_, hk, _, hrounds, forRound_eq_return_iff.2 ⟨_, hgoes, h⟩⟩

/-- Running statements in a row ends in a signal exactly when one of them does after those before
it. -/
theorem executeAll_eq_error_iff {s : Signal} :
    executeAll (d + 1) scope body w = .error s w' ↔
      ∃ before t after w₁, body = before ++ t :: after ∧
      executeAll (d + 1) scope before w = .ok () w₁ ∧ execute d scope t w₁ = .error s w' := by
  induction body generalizing w with
  | nil =>
    refine ⟨fun h => ?_, fun ⟨before, t, after, _, h, _⟩ => ?_⟩
    · rw [executeAll_nil] at h
      cases h
    · simp at h
  | cons t body ih =>
    rw [executeAll_cons, bind_eq_error_iff]
    constructor
    · rintro (h | ⟨_, w₁, hfirst, h⟩)
      · exact ⟨[], t, body, w, rfl, executeAll_nil, discard_eq_error_iff.1 h⟩
      · obtain ⟨before, u, after, w₂, rfl, hbefore, hu⟩ := ih.1 h
        refine ⟨t :: before, u, after, w₂, rfl, ?_, hu⟩
        rw [executeAll_cons]
        exact (bind_ok hfirst).trans hbefore
    · rintro ⟨before, u, after, w₂, heq, hbefore, hu⟩
      cases before with
      | nil =>
        cases heq
        rw [executeAll_nil] at hbefore
        cases hbefore
        exact .inl (discard_eq_error_iff.2 hu)
      | cons t' before =>
        cases heq
        rw [executeAll_cons] at hbefore
        obtain ⟨_, w₁, hfirst, hbefore⟩ := bind_eq_ok hbefore
        exact .inr ⟨_, w₁, hfirst, ih.2 ⟨before, u, after, w₂, rfl, hbefore, hu⟩⟩

/-- Running a body ends in a return exactly when it comes to a `return` statement, and with what
that gives. -/
theorem executeAll_eq_return_iff : executeAll d scope body w = .error (.return v) w' ↔
      ∃ k e w₁, Reaches scope d body w (k + 1) (.return e) w₁ ∧ Returned k scope e w₁ v w' := by
  constructor
  · -- on the levels, since a body is run with two less inside each statement
    induction d using Nat.strongRecOn generalizing body w with
    | _ d ih =>
      intro h
      match d with
      | 0 =>
        cases body with
        | nil =>
          rw [executeAll] at h
          cases h
        | cons t body =>
          rw [executeAll] at h
          · exact absurd h (lift_no_return _)
          · exact nofun
      | 1 =>
        obtain ⟨before, t, after, w₁, rfl, hbefore, h⟩ := executeAll_eq_error_iff.1 h
        rw [execute] at h
        exact absurd h (lift_no_return _)
      | d + 2 =>
        obtain ⟨before, t, after, w₁, rfl, hbefore, h⟩ := executeAll_eq_error_iff.1 h
        rcases execute_eq_return_iff.1 h with ⟨e, rfl, hgives⟩ | ⟨inside, w₂, henters, h⟩
        · exact ⟨d, e, w₁, .own hbefore, hgives⟩
        · obtain ⟨k, e, w₃, hreaches, hgives⟩ := ih d (by omega) h
          exact ⟨k, e, w₃, .inner hbefore henters hreaches, hgives⟩
  · rintro ⟨k, e, w₁, hreaches, hgives⟩
    generalize hlevel : k + 1 = n, hstmt : Stmt.return e = s at hreaches
    induction hreaches with
    | own hbefore =>
      subst hlevel hstmt
      exact executeAll_eq_error_iff.2 ⟨_, _, _, _, rfl, hbefore, execute_return_iff.2 hgives⟩
    | inner hbefore henters _ ih =>
      exact executeAll_eq_error_iff.2 ⟨_, _, _, _, rfl, hbefore,
        execute_eq_return_iff.2 (.inr ⟨_, _, henters, ih hgives hlevel hstmt⟩)⟩

/-! ## What a call gives -/

/-- The outcome of a call by that of its body: the value of a return, and null without one. -/
def outcomeOfCall : EStateM.Result Signal World Unit → EStateM.Result Signal World Value
  | .ok _ w => .ok .null w
  | .error (.return v) w => .ok v w
  | .error s w => .error s w

theorem catchReturn_eq (body : Action Unit) (w : World) :
    catchReturn body w = outcomeOfCall (body w) := by
  show EStateM.tryCatch (EStateM.bind body _) _ w = _
  unfold EStateM.tryCatch EStateM.bind
  cases body w with
  | ok a w₁ => rfl
  | error s w₁ => cases s <;> rfl

theorem Closure.call_eq_outcome (c : Closure) (args : List Value) (w : World) :
    c.call d args w = outcomeOfCall (c.runBody d args w) := by
  obtain ⟨w₁, hbind⟩ := bindGiven_ok w.code.scopes.size c.params args
    { w with code := { w.code with scopes := w.code.scopes.push { parent := some c.scope } } }
  have hopen : openScope c.scope w = .ok w.code.scopes.size
      { w with code := { w.code with scopes := w.code.scopes.push { parent := some c.scope } } } :=
      rfl
  unfold Closure.call Closure.runBody
  rw [bind_ok hopen, bind_ok hopen, bind_ok hbind, bind_ok hbind, catchReturn_eq]

theorem runMethod_eq_outcome (self : Option Loc) (m : MethodDef (List Stmt)) (args : List Value)
    (w : World) : runMethod (d + 1) self m args w = outcomeOfCall (methodBody d self m args w) := by
  let w₁ : World :=
    { w with code := { w.code with scopes := w.code.scopes.push { parent := some globalScope } } }
  have hopen : openScope globalScope w = .ok w.code.scopes.size w₁ := rfl
  rw [runMethod]
  unfold methodBody
  rw [bind_ok hopen, bind_ok hopen]
  cases self with
  | none =>
    obtain ⟨w₂, hbind⟩ := bindAll_ok w.code.scopes.size m.params args w₁
    dsimp only
    rw [bind_ok hbind, bind_ok hbind, catchReturn_eq]
  | some l =>
    have hself : assign w.code.scopes.size "this" (.instance l) w₁ =
      .ok () { w₁ with code := w₁.code.setVar w.code.scopes.size "this" (.instance l) } := rfl
    obtain ⟨w₂, hbind⟩ := bindAll_ok w.code.scopes.size m.params args
      { w₁ with code := w₁.code.setVar w.code.scopes.size "this" (.instance l) }
    dsimp only
    rw [bind_ok hself, bind_ok hself, bind_ok hbind, bind_ok hbind, catchReturn_eq]

theorem callMethod_eq_outcome {receiver : Loc} {inside : Bool}
    (hm : w.code.method? false (w.heap.instanceAt receiver).1 name args.length = some m)
    (hinside : m.access = .ownClass → inside = true) :
      callMethod (d + 2) receiver name args inside w =
        outcomeOfCall (methodBody d (some receiver) m args w) := by
  have hheap : (liftM heap : Action Heap) w = .ok w.heap w := rfl
  have hcode : code w = .ok w.code w := rfl
  have hopen : ¬ (m.access == .ownClass && !inside) = true := by
    rw [Bool.and_eq_true, beq_iff_eq]
    rintro ⟨haccess, hout⟩
    rw [hinside haccess] at hout
    cases hout
  rw [callMethod, ← runMethod_eq_outcome]
  refine (bind_ok hheap).trans ((bind_ok hcode).trans ?_)
  simp only [hm, if_neg hopen]

theorem callStatic_eq_outcome {owner : Loc}
    (hm : w.code.method? true owner name args.length = some m) :
    callStatic (d + 2) owner name args w = outcomeOfCall (methodBody d none m args w) := by
  have hcode : code w = .ok w.code w := rfl
  rw [callStatic, ← runMethod_eq_outcome]
  refine (bind_ok hcode).trans ?_
  simp only [hm]

/-- The outcome of making an instance by that of the body of its constructor: the instance, whatever
is returned. -/
def outcomeOfNew (l : Loc) : EStateM.Result Signal World Unit → EStateM.Result Signal World Value
  | .ok _ w => .ok (.instance l) w
  | .error (.return _) w => .ok (.instance l) w
  | .error s w => .error s w

/-- What is done with an instance once the arguments are there: a constructor runs, if there is
one. -/
def construct (d : Nat) (l : Loc) (m : Option (MethodDef (List Stmt))) (args : List Value) :
    Action Value := do
  if let some m := m then discard <| runMethod d (some l) m args
  return .instance l

theorem construct_some (l : Loc) (m : MethodDef (List Stmt)) (args : List Value) :
    construct (d + 1) l (some m) args w = outcomeOfNew l (methodBody d (some l) m args w) := by
  have hrun := runMethod_eq_outcome (d := d) (some l) m args w
  unfold construct
  dsimp only
  rw [discard_eq, bind_assoc]
  cases hbody : methodBody d (some l) m args w with
  | ok a w₁ =>
    rw [hbody] at hrun
    exact (bind_ok hrun).trans rfl
  | error s w₁ =>
    rw [hbody] at hrun
    cases s with
    | «return» v => exact (bind_ok hrun).trans rfl
    | _ => exact (bind_error hrun).trans rfl

/-- The constructor is looked for after the arguments were evaluated. -/
theorem evaluate_new_eq {cls l : Loc} {xs : List Expr} (hcls : classNamed scope name w = .ok cls w)
    (hl : instantiate cls w = .ok l w₁) (hargs : evaluateAll d scope xs w₁ = .ok args w₂) :
    evaluate (d + 1) scope (.new name xs) w =
      construct d l (w₂.code.method? false cls name args.length) args w₂ := by
  have hcode : code w₂ = .ok w₂.code w₂ := rfl
  rw [evaluate]
  exact (bind_ok hcls).trans
    ((bind_ok hl).trans ((bind_ok hargs).trans ((bind_ok hcode).trans rfl)))

theorem evaluate_new_eq_outcome {cls l : Loc} {xs : List Expr}
    (hcls : classNamed scope name w = .ok cls w) (hl : instantiate cls w = .ok l w₁)
    (hargs : evaluateAll (d + 1) scope xs w₁ = .ok args w₂)
    (hm : w₂.code.method? false cls name args.length = some m) :
    evaluate (d + 2) scope (.new name xs) w = outcomeOfNew l (methodBody d (some l) m args w₂) := by
  rw [evaluate_new_eq hcls hl hargs, hm, construct_some]

/-- A return ends its own body. No expression and no call of a function, a method, a static method
or a function that calls back ends in one. A body ends in one exactly when running it comes to a
`return` statement of its own, through blocks, branches and loops, and with the value of that. A
call has this value, or null where its body ends without; and what a constructor returns is not the
value of `new`, which is the instance. -/
theorem return_ends_its_own_body (d : Nat) (w : World) :
    (∀ v w',
      (∀ scope e, evaluate d scope e w ≠ .error (.return v) w') ∧
      (∀ f args, apply d f args w ≠ .error (.return v) w') ∧
      (∀ receiver name args inside, callMethod d receiver name args inside w ≠
        .error (.return v) w') ∧
      (∀ owner name args, callStatic d owner name args w ≠ .error (.return v) w') ∧
      ∀ scope body, executeAll d scope body w = .error (.return v) w' ↔
        ∃ k e w₁, Reaches scope d body w (k + 1) (.return e) w₁ ∧ Returned k scope e w₁ v w') ∧
    (∀ args,
      (∀ l c, w.code.closureAt? l = some c →
        apply (d + 1) (.function l) args w = outcomeOfCall (c.runBody d args w)) ∧
      (∀ receiver name inside m,
        w.code.method? false (w.heap.instanceAt receiver).1 name args.length = some m →
        (m.access = .ownClass → inside = true) →
        callMethod (d + 2) receiver name args inside w =
          outcomeOfCall (methodBody d (some receiver) m args w)) ∧
      ∀ owner name m, w.code.method? true owner name args.length = some m →
        callStatic (d + 2) owner name args w = outcomeOfCall (methodBody d none m args w)) ∧
    ∀ scope name cls l xs args w₁ w₂ m, classNamed scope name w = .ok cls w →
      instantiate cls w = .ok l w₁ → evaluateAll (d + 1) scope xs w₁ = .ok args w₂ →
      w₂.code.method? false cls name args.length = some m →
      evaluate (d + 2) scope (.new name xs) w =
        outcomeOfNew l (methodBody d (some l) m args w₂) := by
  have h := Behaves.all .full d
  have hw := w.code.obeys_full
  refine ⟨fun v w' => ⟨fun scope e => evaluate_no_return e, fun f args =>
    (h.apply f args).no_return hw,
    fun receiver name args inside => (h.callMethod receiver name args inside).no_return hw,
    fun owner name args => (h.callStatic owner name args).no_return hw,
    fun scope body => executeAll_eq_return_iff⟩, fun args => ⟨fun l c hc => ?_, ?_, ?_⟩, ?_⟩
  · rw [apply_function hc, Closure.call_eq_outcome]
  · exact fun receiver name inside m => callMethod_eq_outcome
  · exact fun owner name m => callStatic_eq_outcome
  · exact fun scope name cls l xs args w₁ w₂ m => evaluate_new_eq_outcome

/-- A return inside a loop and a block ends the function. -/
theorem return_inside_loop_ends_function :
    let body :
    List Stmt := [.while (.literal (.bool true)) [.block [.return (some (.literal (.whole 5)))]]]
    ∃ w', apply 9 (.function 0) [] (oneFunction body) = .ok (.int 5) w' := by
  intro body
  obtain ⟨w₁, hw₁⟩ : ∃ w₁, Closure.runBody ⟨some "f", [], body, globalScope⟩ 8 []
      (oneFunction body) = executeAll 8 2 body w₁ := ⟨_, (bind_ok rfl).trans (bind_ok rfl)⟩
  have hlimit : 0 < loopLimit := by decide
  have hgoes : holds 6 2 (.literal (.bool true)) w₁ = .ok true w₁ := by
    unfold holds
    rw [evaluate]
    rfl
  have hvalue : Returned 2 2 (some (.literal (.whole 5))) w₁ (.int 5) w₁ := by
    show evaluate 2 2 (.literal (.whole 5)) w₁ = _
    rw [evaluate]
    rfl
  -- the loop is entered in its first round, and the block in it at once
  have hreaches : Reaches 2 8 body w₁ 3 (.return (some (.literal (.whole 5)))) w₁ :=
    .inFirst (.whileBody hlimit (.none w₁) hgoes) (.inFirst .block .first)
  have hbody := ((return_ends_its_own_body 8 w₁).1 (.int 5) w₁).2.2.2.2 2 body
  have hcall := ((return_ends_its_own_body 8 (oneFunction body)).2.1 []).1 0
    ⟨some "f", [], body, globalScope⟩ rfl
  rw [hw₁, hbody.2 ⟨2, _, w₁, hreaches, hvalue⟩] at hcall
  exact ⟨w₁, hcall⟩

/-- Where the interpreter, a part of the implementation, is told to run the body of a function,
there is no call that the return could end. -/
theorem body_run_by_hand_returns :
    let f : Expr := .name "f"
    let w := oneFunction [.return (some (.literal (.whole 5)))]
    Host.perform globalScope (.call (.member (.member f "interpreter") "eval")
      [.member f "body", .member f "closure"]) w = .error (.return (.int 5)) w := by
  intro f w
  have hf : w.code.lookup globalScope "f" = some (.function 0) := oneFunction_lookup _
  have hargs : [f.member "body", f.member "closure"].mapM (Host.resolve globalScope) w =
      .ok [.handle (.body 0), .handle (.scope globalScope)] w :=
    Host.resolveAll_cons (Host.resolve_part hf rfl)
    (Host.resolveAll_cons (Host.resolve_part hf rfl) rfl)
  have hbody : executeAll 959 globalScope [.return (some (.literal (.whole 5)))] w =
      .error (.return (.int 5)) w :=
    executeAll_eq_return_iff.2 ⟨_, _, w, .first, evaluate_literal 956 _ _ w⟩
  have hblock : execute (959 + 1) globalScope (.block [.return (some (.literal (.whole 5)))]) w =
      .error (.return (.int 5)) w := by
    rw [execute]
    exact bind_error hbody
  exact (Host.perform_send (.inl rfl) hf rfl hargs "eval").trans ((bind_ok rfl).trans hblock)

end ScriptLang
