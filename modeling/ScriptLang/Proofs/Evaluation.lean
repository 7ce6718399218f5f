import ScriptLang.Host
import ScriptLang.Proofs.Callbacks

/-!
# What evaluation does to the code

Each rule of evaluation, with a number of levels left to nest, stays within its bounds when the
rules with one level less do. A rule that evaluates in a scope may write that scope only; a call
opens a scope of its own and so may write none that was there.
-/

namespace ScriptLang

open ScriptLang.Action

/-- The bounds of all rules with `d` levels to nest, for trees that obey a licence. Only statements
end in a `return`. -/
structure Behaves (lic : Licence) (d : Nat) : Prop where
  evaluate : ∀ scope e, e.obeys lic = true →
    Within lic (.scope scope) ⟨lic.jumps, false⟩ (evaluate d scope e)
  evaluateAll : ∀ scope xs, exprsObey lic xs = true →
    Within lic (.scope scope) ⟨lic.jumps, false⟩ (evaluateAll d scope xs)
  execute : ∀ scope inLoop s, s.obeys lic inLoop = true →
    Within lic (.scope scope) ⟨lic.jumps || inLoop, true⟩ (execute d scope s)
  executeAll : ∀ scope inLoop body, stmtsObey lic inLoop body = true →
    Within lic (.scope scope) ⟨lic.jumps || inLoop, true⟩ (executeAll d scope body)
  defineClass : ∀ scope c, (Stmt.classDef c).obeys lic false = true →
    Within lic (.scope scope) ⟨lic.jumps, false⟩ (defineClass d scope c)
  runMethod : ∀ self m args, m.params.all lic.binds = true ∧ stmtsObey lic false m.body = true →
    Within lic .nothing ⟨lic.jumps, false⟩ (runMethod d self m args)
  callMethod : ∀ receiver name args inside,
    Within lic .nothing ⟨lic.jumps, false⟩ (callMethod d receiver name args inside)
  callStatic : ∀ owner name args,
    Within lic .nothing ⟨lic.jumps, false⟩ (callStatic d owner name args)
  apply : ∀ f args, Within lic .nothing ⟨lic.jumps, false⟩ (apply d f args)

namespace Behaves

variable {lic : Licence} {d : Nat}

theorem zero : Behaves lic 0 where
  evaluate _ _ _ := by
    rw [evaluate_zero]
    exact Within.lift _
  evaluateAll _ xs _ := by
    cases xs with
    | nil =>
      rw [ScriptLang.evaluateAll]
      exact .pure trivial
    | cons =>
      rw [evaluateAll_zero]
      exact Within.lift _
  execute _ _ _ _ := by
    rw [execute_zero]
    exact Within.lift _
  executeAll _ _ body _ := by
    cases body with
    | nil =>
      rw [ScriptLang.executeAll]
      exact .pure trivial
    | cons =>
      rw [executeAll_zero]
      exact Within.lift _
  defineClass _ _ _ := by
    rw [defineClass_zero]
    exact Within.lift _
  runMethod _ _ _ _ := by
    rw [runMethod_zero]
    exact Within.lift _
  callMethod _ _ _ _ := by
    rw [callMethod_zero]
    exact Within.lift _
  callStatic _ _ _ := by
    rw [callStatic_zero]
    exact Within.lift _
  apply _ _ := by
    rw [apply_zero]
    exact Within.lift _

variable (h : Behaves lic d)

include h

theorem evaluate_succ (scope : ScopeId) (e : Expr) (he : e.obeys lic = true) :
    Within lic (.scope scope) ⟨lic.jumps, false⟩ (ScriptLang.evaluate (d + 1) scope e) := by
  -- a call may be made where one scope may be written
  have called (f : Value) (args : List Value) :
      Within lic (.scope scope) ⟨lic.jumps, false⟩ (ScriptLang.apply d f args) :=
      (h.apply f args).mono
  rw [ScriptLang.evaluate.eq_def]
  cases e with
  | literal v => exact .pure trivial
  | name x => exact Within.lookup _ _
  | this => exact Within.lookup _ _
  | array xs => exact (h.evaluateAll scope xs he).seq <| Within.lift _
  | object fs =>
    have hfs := fieldsObey_iff.1 he
    exact (Policy.Ensures.foldlM trivial fun f hf _ _ =>
      (h.evaluate scope f.2 (hfs f hf)).give).seq <| Within.lift _
  | function f => exact closure_within scope he
  | call f xs =>
    obtain ⟨hf, hxs⟩ := Bool.and_eq_true_iff.1 he
    have callee := h.evaluate scope f hf
    have arguments := h.evaluateAll scope xs hxs
    dsimp only
    exact Within.parts
  | member o name => exact (h.evaluate scope o he).seq <| member_within _ _ _
  | index a i =>
    obtain ⟨ha, hi⟩ := Bool.and_eq_true_iff.1 he
    exact (h.evaluate scope a ha).seq <| (h.evaluate scope i hi).seq <| Within.lift _
  | unary op e => exact (h.evaluate scope e he).seq <| Within.lift _
  | binary op l r =>
    obtain ⟨hl, hr⟩ := Bool.and_eq_true_iff.1 he
    exact (h.evaluate scope l hl).seq <| (h.evaluate scope r hr).seq <| Within.lift _
  | assign x e =>
    obtain ⟨hx, he⟩ := Bool.and_eq_true_iff.1 he
    exact (h.evaluate scope e he).seq <| (Within.assign scope hx _).give
  | assignIndex a i e =>
    obtain ⟨hai, hv⟩ := Bool.and_eq_true_iff.1 he
    obtain ⟨_, hi⟩ := Bool.and_eq_true_iff.1 hai
    cases a with
    | name x =>
      exact (Within.lookup _ _).seq <| (h.evaluate scope i hi).seq <| (h.evaluate scope e hv).seq <|
        (Within.lift _).give
    | _ => exact Within.lift _
  | assignMember o name e =>
    obtain ⟨ho, he⟩ := Bool.and_eq_true_iff.1 he
    exact (h.evaluate scope o ho).seq <| (h.evaluate scope e he).seq <|
      (setMember_within _ _ _).give
  | new name xs =>
    refine (Within.classNamed _ _).seq <| (instantiate_within _).seq <|
      (h.evaluateAll scope xs he).seq <| Within.code.bind fun c hc => ?_
    split
    · next m hm => exact (h.runMethod _ m _ (hc.method? hm)).mono.discard.give
    · exact .pure trivial

theorem evaluateAll_succ (scope : ScopeId) (xs : List Expr) (hxs : exprsObey lic xs = true) :
    Within lic (.scope scope) ⟨lic.jumps, false⟩ (ScriptLang.evaluateAll (d + 1) scope xs) := by
  rw [ScriptLang.evaluateAll]
  exact (Policy.Ensures.mapM fun x hx => h.evaluate scope x (exprsObey_iff.1 hxs x hx)).any

theorem executeAll_succ (scope : ScopeId) (inLoop : Bool) (body : List Stmt)
    (hbody : stmtsObey lic inLoop body = true) :
    Within lic (.scope scope) ⟨lic.jumps || inLoop, true⟩
      (ScriptLang.executeAll (d + 1) scope body) := by
  rw [ScriptLang.executeAll]
  exact .forM fun s hs => (h.execute scope inLoop s (stmtsObey_iff.1 hbody s hs)).discard

theorem execute_succ (scope : ScopeId) (inLoop : Bool) (s : Stmt) (hs : s.obeys lic inLoop = true) :
    Within lic (.scope scope) ⟨lic.jumps || inLoop, true⟩ (ScriptLang.execute (d + 1) scope s) := by
  have hexits (s : Signal) (hs : (Exits.mk lic.jumps false).Allow s) :
      (Exits.mk (lic.jumps || inLoop) true).Allow s :=
    ⟨fun hjump => Bool.or_eq_true_iff.2 (.inl (hs.1 hjump)), fun _ => rfl⟩
  have value (e : Expr) (he : e.obeys lic = true) :
      Within lic (.scope scope) ⟨lic.jumps || inLoop, true⟩ (ScriptLang.evaluate d scope e) :=
    Within.mono (h.evaluate scope e he) (.inr rfl) hexits
  have inside (body : List Stmt) (hbody : stmtsObey lic true body = true) :
      Within lic (.scope scope) ⟨true, true⟩ (ScriptLang.executeAll d scope body) :=
    Within.mono (h.executeAll scope true body hbody) (.inr rfl) fun _ _ =>
    ⟨fun _ => rfl, fun _ => rfl⟩
  rw [ScriptLang.execute.eq_def]
  cases s with
  | expr e => exact value e hs
  | block body => exact (h.executeAll scope inLoop body hs).give
  | cond c t e =>
    obtain ⟨hct, he⟩ := Bool.and_eq_true_iff.1 hs
    obtain ⟨hc, ht⟩ := Bool.and_eq_true_iff.1 hct
    refine (value c hc).seq <| (Within.lift _).seq <| .ite (h.executeAll scope inLoop t ht).give ?_
    cases e with
    | none => exact .pure trivial
    | some body => exact (h.executeAll scope inLoop body he).give
  | «while» c body =>
    obtain ⟨hc, hbody⟩ := Bool.and_eq_true_iff.1 hs
    refine (Within.repeatWhile ?_ _).give
    exact (value c hc).seq <| (Within.lift _).seq <| .ite (Within.loopBody (inside body hbody))
      (.pure trivial)
  | doWhile body c =>
    obtain ⟨hbody, hc⟩ := Bool.and_eq_true_iff.1 hs
    refine (Within.repeatWhile ?_ _).give
    exact (Within.loopBody (inside body hbody)).seq <| .ite ((value c hc).seq <| Within.lift _)
      (.pure trivial)
  | «for» i c s body =>
    obtain ⟨hics, hbody⟩ := Bool.and_eq_true_iff.1 hs
    obtain ⟨hic, hstep⟩ := Bool.and_eq_true_iff.1 hics
    obtain ⟨hi, hc⟩ := Bool.and_eq_true_iff.1 hic
    refine (Policy.Ensures.forM? fun e he => (value e (exprObeys?_iff.1 hi e he)).discard).seq <|
      (Within.repeatWhile (Within.forRound ?_ ?_ ?_) _).give
    · cases c with
      | none => exact .pure trivial
      | some e => exact (value e hc).seq <| Within.lift _
    · exact inside body hbody
    · exact .forM? fun e he => (value e (exprObeys?_iff.1 hstep e he)).discard
  | «break» => exact .throw ⟨fun _ => hs, nofun⟩
  | «continue» => exact .throw ⟨fun _ => hs, nofun⟩
  | «return» v =>
    cases v with
    | none => exact .throw ⟨nofun, fun _ => rfl⟩
    | some e => exact (value e hs).seq <| .throw ⟨nofun, fun _ => rfl⟩
  | classDef c =>
    refine Within.mono (h.defineClass scope c ?_) (.inr rfl) hexits
    exact classDef_obeys_iff.2 (classDef_obeys_iff.1 hs)

theorem defineClass_succ (scope : ScopeId) (c : ClassDef Expr (List Stmt))
    (hc : (Stmt.classDef c).obeys lic false = true) :
    Within lic (.scope scope) ⟨lic.jumps, false⟩ (ScriptLang.defineClass (d + 1) scope c) := by
  obtain ⟨hname, hm, hp⟩ := classDef_obeys_iff.1 hc
  have initials : Within lic (.scope scope) ⟨lic.jumps, false⟩
      (giveInitials (ScriptLang.evaluate d scope) c.site c.properties.zipIdx) := by
    refine Within.giveInitials fun p i hmem e he => ?_
    obtain ⟨hlic, he⟩ := propertiesObey_iff.1 hp p (List.fst_mem_of_mem_zipIdx hmem) e he
    exact ⟨hlic, h.evaluate scope e he⟩
  -- the parent was there before the initial values were computed
  have rest (parent : Option Loc) (w : World) (hw : w.code.Obeys lic)
      (hparent : ∀ p ∈ parent, p < w.code.classes.size) :=
    Policy.Ensures.ends_since ((initials.since w).seq <| .bind (Within.newClass_since (k :=
      { name := c.name, parent, methods := c.methods, properties := propertyRefs c }) hw hm hparent)
      fun l _ => ((Within.assign scope hname (.class l)).since w).give (g := fun _ =>
        Value.class l)) hw
  rw [ScriptLang.defineClass]
  refine ⟨fun w hw => ?_⟩
  rcases Within.parentNamed_cases scope c.parent w with ⟨f, hrun⟩ | ⟨parent, hparent, hrun⟩
  · rw [bind_error hrun]
    exact ⟨hw, .refl, nofun, nofun⟩
  · rw [bind_ok hrun]
    exact rest parent w hw hparent

theorem body_within (scope : ScopeId) {body : List Stmt} (hbody : stmtsObey lic false body = true) :
    Within lic (.scope scope) ⟨lic.jumps, false⟩
      (catchReturn (ScriptLang.executeAll d scope body)) := by
  have h := h.executeAll scope false body hbody
  rw [Bool.or_false] at h
  exact Within.catchReturn h

theorem runMethod_succ (self : Option Loc) (m : MethodDef (List Stmt)) (args : List Value)
    (hm : m.params.all lic.binds = true ∧ stmtsObey lic false m.body = true) :
    Within lic .nothing ⟨lic.jumps, false⟩ (ScriptLang.runMethod (d + 1) self m args) := by
  rw [ScriptLang.runMethod]
  exact Within.inMethodScope fun scope => (Within.bindAll scope hm.1 args).seq <|
    h.body_within scope hm.2

theorem callMethod_succ (receiver : Loc) (name : String) (args : List Value) (inside : Bool) :
    Within lic .nothing ⟨lic.jumps, false⟩
      (ScriptLang.callMethod (d + 1) receiver name args inside) := by
  rw [ScriptLang.callMethod]
  refine (Within.lift _).bind fun s _ => Within.code.bind fun c hc => ?_
  split
  · exact Within.lift _
  · next m hm => exact .ite (Within.lift _) (h.runMethod _ m args (hc.method? hm))

theorem callStatic_succ (owner : Loc) (name : String) (args : List Value) :
    Within lic .nothing ⟨lic.jumps, false⟩ (ScriptLang.callStatic (d + 1) owner name args) := by
  rw [ScriptLang.callStatic]
  refine Within.code.bind fun c hc => ?_
  split
  · exact Within.lift _
  · next m hm => exact h.runMethod none m args (hc.method? hm)

theorem apply_succ (f : Value) (args : List Value) :
    Within lic .nothing ⟨lic.jumps, false⟩ (ScriptLang.apply (d + 1) f args) := by
  have hcall := h.apply
  have hmethod := h.callMethod
  have hstatic := h.callStatic
  rw [ScriptLang.apply.eq_def]
  dsimp only
  split
  · next l =>
    refine ⟨fun w hw => ?_⟩
    have hcode : code w = .ok w.code w := rfl
    rw [bind_ok hcode]
    cases hk : w.code.closureAt? l with
    | none => exact ⟨hw, .refl, trivial⟩
    | some k =>
      obtain ⟨hparams, hbody⟩ := hw.closureAt? hk
      exact Within.inNewScope {} hw (fun hrooted => hrooted.functions k (Array.mem_of_getElem? hk))
        (by simp) fun scope =>
        (Within.bindGiven scope hparams args).seq <| h.body_within scope hbody
  · exact Native.invoke_within _ args
  · exact Within.parts
  · exact Within.lift _
  · exact Within.lift _

theorem succ : Behaves lic (d + 1) where
  evaluate := h.evaluate_succ
  evaluateAll := h.evaluateAll_succ
  execute := h.execute_succ
  executeAll := h.executeAll_succ
  defineClass := h.defineClass_succ
  runMethod := h.runMethod_succ
  callMethod := h.callMethod_succ
  callStatic := h.callStatic_succ
  apply := h.apply_succ

omit h in
theorem all (lic : Licence) (d : Nat) : Behaves lic d := by
  induction d with
  | zero => exact zero
  | succ d ih => exact ih.succ

end Behaves

/-! ## Scopes -/

/-- The world in which an action ends, whether in a value or in a signal. -/
def Action.final {α : Type} (x : Action α) (w : World) : World :=
  match x w with
  | .ok _ w' | .error _ w' => w'

variable {α : Type} {x : Action α} {w w' : World} {d : Nat} {s : Signal}

theorem Policy.Ensures.final {P : Policy Signal World} {Q : α → Prop} (h : P.Ensures x Q)
    (hw : P.inv w) : P.inv (x.final w) ∧ P.rel w (x.final w) := by
  have hends := h.ends w hw
  unfold Action.final
  cases hrun : x w with
  | ok a w' =>
    rw [hrun] at hends
    exact ⟨hends.1, hends.2.1⟩
  | error s w' =>
    rw [hrun] at hends
    exact ⟨hends.1, hends.2.1⟩

variable {own : Own} {args : List Value}

theorem Within.final {lic : Licence} {exits : Exits} (h : Within lic own exits x)
    (hw : w.code.Obeys lic) : Effect lic own w.code (x.final w).code :=
  (Policy.Ensures.final h hw).2 hw

/-- Whatever is within bounds leaves the scopes that it may not write as they were. -/
theorem Within.scope_final {exits : Exits} (h : Within .full own exits x) {id : ScopeId}
    (hid : id < w.code.scopes.size) (hown : own ≠ .scope id) :
    (x.final w).code.scopes[id]? = w.code.scopes[id]? :=
  (h.final w.code.obeys_full).frame id hid hown

theorem Code.setVar_self {c : Code} {scope : ScopeId} (h : scope < c.scopes.size) (x : String)
    (v : Value) : ((c.setVar scope x v).scopes[scope]?.bind fun s => s.vars[x]?) = some v := by
  simp [Code.setVar, Array.getElem_modify, h]

theorem assign_writes {scope : ScopeId} {x : String} {e : Expr} {v : Value}
    (h : evaluate (d + 1) scope (.assign x e) w = .ok v w') (hscope : scope < w.code.scopes.size) :
    (w'.code.scopes[scope]?.bind fun s => s.vars[x]?) = some v := by
  rw [evaluate] at h
  obtain ⟨v₁, w₁, hrun, h⟩ := bind_eq_ok h
  have hrel :=
    ((Behaves.all .full d).evaluate scope e e.obeys_full).rel_of_ok w.code.obeys_full hrun
  cases h
  exact Code.setVar_self (Nat.lt_of_lt_of_le hscope (hrel w.code.obeys_full).grows) x _

/-- Evaluation writes only the current scope. Whatever a node does in a scope, and however it ends,
every other scope that was there is as it was; a call of a function, method or constructor, from the
program or from a function it was handed to, writes no scope that was there. The current scope is
written indeed: an assignment sets its variable there. -/
theorem evaluation_writes_only_its_scope (d : Nat) (scope id : ScopeId) (w : World)
    (hid : id < w.code.scopes.size) :
    (id ≠ scope →
      (∀ e, ((evaluate d scope e).final w).code.scopes[id]? = w.code.scopes[id]?) ∧
      (∀ s, ((execute d scope s).final w).code.scopes[id]? = w.code.scopes[id]?) ∧
      ∀ body, ((executeAll d scope body).final w).code.scopes[id]? = w.code.scopes[id]?) ∧
    (∀ f args, ((apply d f args).final w).code.scopes[id]? = w.code.scopes[id]?) ∧
    (∀ self m args, ((runMethod d self m args).final w).code.scopes[id]? = w.code.scopes[id]?) ∧
    (∀ receiver name args inside,
      ((callMethod d receiver name args inside).final w).code.scopes[id]? = w.code.scopes[id]?) ∧
    (∀ owner name args,
      ((callStatic d owner name args).final w).code.scopes[id]? = w.code.scopes[id]?) ∧
    ∀ x e v w', evaluate (d + 1) id (.assign x e) w = .ok v w' →
      (w'.code.scopes[id]?.bind fun s => s.vars[x]?) = some v := by
  have h := Behaves.all .full d
  refine ⟨fun hne => ?_, fun f args => ?_, fun self m args => ?_, fun r name args inside => ?_,
    fun owner name args => ?_, fun x e v w' hrun => assign_writes hrun hid⟩
  · have hown : Own.scope scope ≠ .scope id := fun heq => hne (Own.scope.inj heq).symm
    exact ⟨fun e => Within.scope_final (h.evaluate scope e e.obeys_full) hid hown,
      fun s => Within.scope_final (h.execute scope false s (s.obeys_full _)) hid hown,
      fun body => Within.scope_final (h.executeAll scope false body (stmtsObey_full _ _)) hid hown⟩
  · exact Within.scope_final (h.apply f args) hid nofun
  · exact Within.scope_final (h.runMethod self m args m.obeys_full) hid nofun
  · exact Within.scope_final (h.callMethod r name args inside) hid nofun
  · exact Within.scope_final (h.callStatic owner name args) hid nofun

/-- A world with a global scope, a scope inside it and one function. -/
def oneFunction (body : List Stmt) : World where
  code := {
    scopes :=
    #[{ vars := (({} : Std.HashMap String Value).insert "x" (.int 1)).insert "f" (.function 0) },
      { parent := some globalScope }]
    functions := #[⟨some "f", [], body, globalScope⟩] }

/-- Setting `x` in a scope and in a function leaves the global `x` alone. -/
theorem global_variable_kept :
    let w := oneFunction [.expr (.assign "x" (.literal (.whole 2)))]
    globalScope < w.code.scopes.size ∧
    ((evaluate 9 1 (.assign "x" (.literal (.whole 2)))).final w).code.scopes[globalScope]? =
      w.code.scopes[globalScope]? ∧
    ((apply 9 (.function 0) []).final w).code.scopes[globalScope]? =
      w.code.scopes[globalScope]? := by
  intro w
  have hid : globalScope < w.code.scopes.size := by decide
  have h := evaluation_writes_only_its_scope 9 1 globalScope w hid
  exact ⟨hid, (h.1 (by decide)).1 _, h.2.1 (.function 0) []⟩

theorem oneFunction_lookup (body : List Stmt) :
    (oneFunction body).code.lookup globalScope "f" = some (.function 0) := by
  simp [oneFunction, Code.lookup, Code.lookupFrom, globalScope]

/-! ## Parts of the implementation -/

namespace Host

variable {l : Loc} {x part : String} {scope : ScopeId} {xs : List Expr} {args : List Value}

theorem resolve_part {v : Value} (hx : w.code.lookup scope x = some (.function l))
    (hv : part? (.function l) part w = .ok (some v) w) :
    resolve scope (.member (.name x) part) w = .ok v w := by
  have hname : resolve scope (.name x) w = .ok (.function l) w := evaluate_name (d := 959) hx
  exact (bind_ok hname).trans ((bind_ok hv).trans rfl)

theorem resolveAll_cons {e : Expr} {v : Value} (he : resolve scope e w = .ok v w)
    (hxs : xs.mapM (resolve scope) w = .ok args w) :
    (e :: xs).mapM (resolve scope) w = .ok (v :: args) w := by
  rw [List.mapM_cons]
  exact (bind_ok he).trans ((bind_ok hxs).trans rfl)

/-- A method of a part of the implementation is called with the values of its arguments. -/
theorem perform_send {h : Handle} (hh : h = .interpreter ∨ ∃ id, h = .scope id)
    (hx : w.code.lookup scope x = some (.function l))
    (hpart : part? (.function l) part w = .ok (some (.handle h)) w)
    (hxs : xs.mapM (resolve scope) w = .ok args w) (name : String) :
    perform scope (.call (.member (.member (.name x) part) name) xs) w = send h name args w := by
  rcases hh with rfl | ⟨id, rfl⟩ <;> exact (bind_ok (resolve_part hx hpart)).trans (bind_ok hxs)

end Host

/-! ## Jumps -/

theorem Within.no_jump {lic : Licence} {returns : Bool} (h : Within lic own ⟨false, returns⟩ x)
    (hw : w.code.Obeys lic) (hs : s.isJump = true) : x w ≠ .error s w' := by
  intro hrun
  have hends := h.ends w hw
  rw [hrun] at hends
  exact Bool.false_ne_true (hends.2.2.1 hs)

theorem catchReturn_jump {body : Action Unit} (hs : s.isJump = true) :
    catchReturn body w = .error s w' ↔ body w = .error s w' := by
  show EStateM.tryCatch (EStateM.bind body _) _ w = _ ↔ _
  unfold EStateM.tryCatch EStateM.bind
  cases body w with
  | ok a w₁ => exact ⟨nofun, nofun⟩
  | error s₁ w₁ =>
    cases s₁ with
    | «return» v =>
      refine ⟨nofun, fun heq => ?_⟩
      cases heq
      contradiction
    | _ => exact ⟨fun heq => by cases heq; rfl, fun heq => by cases heq; rfl⟩

theorem bind_error_congr {β γ : Type} {f : α → Action β} {g : α → Action γ}
    (h : ∀ a w₁, f a w₁ = .error s w' ↔ g a w₁ = .error s w') :
    (x >>= f) w = .error s w' ↔ (x >>= g) w = .error s w' := by
  show EStateM.bind x f w = _ ↔ EStateM.bind x g w = _
  unfold EStateM.bind
  cases x w with
  | ok a w₁ => exact h a w₁
  | error s' w₁ => simp

theorem bindAll_ok (scope : ScopeId) (xs : List String) (vs : List Value) (w : World) :
    ∃ w₁, bindAll scope xs vs w = .ok () w₁ := by
  induction xs generalizing vs w with
  | nil => exact ⟨w, rfl⟩
  | cons x xs ih => exact ih vs.tail _

theorem bindGiven_ok (scope : ScopeId) (xs : List String) (vs : List Value) (w : World) :
    ∃ w₁, bindGiven scope xs vs w = .ok () w₁ := by
  induction xs generalizing vs w with
  | nil => exact ⟨w, by cases vs <;> rfl⟩
  | cons x xs ih =>
    cases vs with
    | nil => exact ⟨w, rfl⟩
    | cons v vs => exact ih vs _

/-- The body of a function in the scope that a call opens for it. -/
def Closure.runBody (c : Closure) (d : Nat) (args : List Value) : Action Unit := do
  let scope ← openScope c.scope
  bindGiven scope c.params args
  executeAll d scope c.body

/-- The body of a method in the scope that a call opens for it. -/
def methodBody (d : Nat) (self : Option Loc) (m : MethodDef (List Stmt)) (args : List Value) :
    Action Unit := do
  let scope ← openScope globalScope
  if let some l := self then assign scope "this" (.instance l)
  bindAll scope m.params args
  executeAll d scope m.body

/-- Runs a function: its body, in a new scope inside the one it was written in. -/
def Closure.call (c : Closure) (d : Nat) (args : List Value) : Action Value := do
  let scope ← openScope c.scope
  bindGiven scope c.params args
  catchReturn (executeAll d scope c.body)

theorem apply_function {l : Loc} {c : Closure} (hc : w.code.closureAt? l = some c) :
    apply (d + 1) (.function l) args w = c.call d args w := by
  have hcode : code w = .ok w.code w := rfl
  rw [apply]
  refine (bind_ok hcode).trans ?_
  simp only [hc]
  rfl

theorem apply_jump {l : Loc} {c : Closure} (hc : w.code.closureAt? l = some c)
    (hs : s.isJump = true) :
    apply (d + 1) (.function l) args w = .error s w' ↔ c.runBody d args w = .error s w' := by
  rw [apply_function hc]
  -- The call and the body differ only in `catchReturn`, which lets every jump through.
  exact bind_error_congr fun _ _ => bind_error_congr fun _ _ => catchReturn_jump hs

theorem runMethod_jump {self : Option Loc} {m : MethodDef (List Stmt)} (hs : s.isJump = true) :
    runMethod (d + 1) self m args w = .error s w' ↔ methodBody d self m args w = .error s w' := by
  rw [runMethod]
  refine bind_error_congr fun scope w₁ => ?_
  cases self with
  | none => exact bind_error_congr fun _ _ => catchReturn_jump hs
  | some l => exact bind_error_congr fun _ _ => bind_error_congr fun _ _ => catchReturn_jump hs

/-- Whether a loop goes on after a signal from its body. -/
def Signal.goesOn : Signal → Bool
  | .continue => true
  | _ => false

theorem loopBody_jump {body : Action Unit} (hs : s.isJump = true) (h : body w = .error s w') :
    loopBody body w = .ok s.goesOn w' := by
  show EStateM.tryCatch (EStateM.bind body _) _ w = _
  unfold EStateM.tryCatch EStateM.bind
  rw [h]
  cases s with
  | «break» => rfl
  | «continue» => rfl
  | _ => contradiction

/-- A jump leaves a call exactly when it leaves the body. Where all functions and methods have their
jumps inside loops of their own, no expression and no call ends in a jump, and the code stays such.
But a call lets every jump of its body through to its caller, and a loop takes a jump from inside
its body as its own, wherever it comes from. -/
theorem jump_leaves_call_iff_leaves_body (d : Nat) (w : World) {s : Signal} (hs : s.isJump = true) :
    (w.code.Obeys .localJumps →
      (∀ scope e, e.obeys .localJumps = true →
        ((evaluate d scope e).final w).code.Obeys .localJumps ∧
          ∀ w', evaluate d scope e w ≠ .error s w') ∧
      (∀ f args, ((apply d f args).final w).code.Obeys .localJumps ∧
        ∀ w', apply d f args w ≠ .error s w') ∧
      (∀ receiver name args inside w', callMethod d receiver name args inside w ≠ .error s w') ∧
      ∀ owner name args w', callStatic d owner name args w ≠ .error s w') ∧
    (∀ args w',
      (∀ l c, w.code.closureAt? l = some c →
        (apply (d + 1) (.function l) args w = .error s w' ↔ c.runBody d args w = .error s w')) ∧
      ∀ self m, runMethod (d + 1) self m args w = .error s w' ↔
        methodBody d self m args w = .error s w') ∧
    ∀ (body : Action Unit) w', body w = .error s w' →
      loopBody body w = .ok s.goesOn w' := by
  refine ⟨fun hw => ?_, fun args w' => ?_, fun body w' h => loopBody_jump hs h⟩
  · have h := Behaves.all .localJumps d
    exact ⟨fun scope e he => ⟨(Within.final (h.evaluate scope e he) hw).obeys,
        fun _ => Within.no_jump (h.evaluate scope e he) hw hs⟩,
      fun f args => ⟨(Within.final (h.apply f args) hw).obeys, fun _ =>
        Within.no_jump (h.apply f args) hw hs⟩,
      fun r name args inside _ => Within.no_jump (h.callMethod r name args inside) hw hs,
      fun owner name args _ => Within.no_jump (h.callStatic owner name args) hw hs⟩
  · exact ⟨fun l c hc => apply_jump hc hs, fun self m => runMethod_jump hs⟩

theorem runBody_break (d : Nat) (name : Option String) (parent : ScopeId) (w : World) :
    ∃ w', Closure.runBody ⟨name, [], [.break], parent⟩ (d + 2) [] w = .error .break w' := by
  have broken (scope : ScopeId) (w : World) :
      executeAll (d + 2) scope [.break] w = .error .break w := by
    have hbreak : execute (d + 1) scope .break = throw .break := by rw [execute]
    rw [executeAll]
    show EStateM.bind (discard (execute (d + 1) scope .break)) _ w = _
    rw [hbreak]
    rfl
  exact ⟨_, broken w.code.scopes.size _⟩

/-- A function that breaks out of a loop of its own lets no break through; one that only breaks
does. -/
theorem break_leaves_call :
    (∀ w', apply 9 (.function 0) []
      (oneFunction [.while (.literal (.bool true)) [.break]]) ≠ .error .break w') ∧
    ∃ w', apply 9 (.function 0) [] (oneFunction [.break]) = .error .break w' := by
  obtain ⟨w', broken⟩ := runBody_break 6 (some "f") globalScope (oneFunction [.break])
  have isJump : Signal.break.isJump = true := rfl
  refine ⟨fun w' => (((jump_leaves_call_iff_leaves_body 9 _ isJump).1 ⟨?_, ?_⟩).2.1 _ _).2 w', w',
    ?_⟩
  · simp [oneFunction, stmtsObey, Stmt.obeys, Expr.obeys]
  · simp [oneFunction]
  · exact (((jump_leaves_call_iff_leaves_body 8 _ isJump).2.1 [] w').1 0 _ rfl).2 broken

/-- A call of a function that only breaks ends the loop around the call. -/
theorem break_ends_the_callers_loop :
    ∃ w', loopBody (discard <| apply 9 (.function 0) []) (oneFunction [.break]) = .ok false w' := by
  obtain ⟨w', broken⟩ := runBody_break 6 (some "f") globalScope (oneFunction [.break])
  have called : apply 9 (.function 0) [] (oneFunction [.break]) = .error .break w' :=
    (apply_jump rfl rfl).2 broken
  refine ⟨w', loopBody_jump (s := .break) rfl ?_⟩
  show EStateM.map _ (apply 9 (.function 0) []) (oneFunction [.break]) = _
  unfold EStateM.map
  rw [called]

end ScriptLang
