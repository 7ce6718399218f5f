import ScriptLang.Proofs.Evaluation
import ScriptLang.Proofs.PlainCalls

/-!
# Evaluation keeps the world in order

Each rule of evaluation, with a number of levels left to nest, keeps the world in order when the
rules with one level less do. So every run keeps what cells were made from, and where a program
reads no raw function, all its data stays plain.
-/

namespace ScriptLang

open ScriptLang.Action

variable {strict : Bool}

/-! ## Operators and indexes -/

namespace Action

instance indexFault_keeps {α : Type} {Q : α → Prop} (what : String) {act : Routine α}
    [h : Keeps strict act Q] : Keeps strict (indexFault what act) Q := by
  refine h.tryCatch fun e _ => ?_
  exact Keeps.parts

instance indexValue_keeps {v : Value} [h : Fact (v.Fits strict)] (index : Value) :
    Gives strict (indexValue v index) := by
  have item : Gives strict (do getItem v (.int (← toInt index))) := Keeps.parts
  unfold indexValue
  exact Keeps.parts

theorem assignIndex_keeps (v index : Value) {new : Value} (hnew : new.Fits strict) :
    Keeps strict (assignIndex v index new) := by
  unfold assignIndex
  split
  · exact indexFault_keeps _ (h := (toInt_keeps _).seq <| setItem_keeps hnew fun _ _ => nofun)
  · exact Still.keeps.bind fun key _ => .modifyEntries fun _ hes => hes.put key hnew
  · exact .fail _

instance applyBinary_keeps (op : BinaryOp) {v w : Value} [h : Fact (v.Fits strict)]
    [k : Fact (w.Fits strict)] : Gives strict (applyBinary op v w) := by
  cases op <;> unfold applyBinary <;> exact Keeps.parts

instance applyUnary_keeps (op : UnaryOp) (v : Value) : Gives strict (applyUnary op v) := by
  cases op <;> unfold applyUnary <;> exact Keeps.parts

end Action

/-! ## Properties of defined classes -/

theorem mem_addProperty {p q : PropertyRef} {ps : List PropertyRef} (h : p ∈ addProperty ps q) :
    p = q ∨ p ∈ ps := by
  induction ps with
  | nil => exact .inl (by simpa [addProperty] using h)
  | cons r ps ih =>
    rw [addProperty] at h
    split at h
    · rcases List.mem_cons.1 h with rfl | h
      · exact .inl rfl
      · exact .inr (List.mem_cons_of_mem _ h)
    · rcases List.mem_cons.1 h with rfl | h
      · exact .inr List.mem_cons_self
      · exact (ih h).imp_right (List.mem_cons_of_mem _)

theorem source_of_mem_propertyRefs {c : ClassDef Expr (List Stmt)} {p : PropertyRef}
    (h : p ∈ propertyRefs c) : ∃ i, p.source = .declared c.site i := by
  have fold (rs ps : List PropertyRef) (hp : p ∈ rs.foldl addProperty ps) : p ∈ rs ∨ p ∈ ps := by
    induction rs generalizing ps with
    | nil => exact .inr hp
    | cons r rs ih =>
      rcases ih _ hp with hp | hp
      · exact .inl (List.mem_cons_of_mem _ hp)
      · rcases mem_addProperty hp with rfl | hp
        · exact .inl List.mem_cons_self
        · exact .inr hp
  rcases fold _ _ h with h | h
  · obtain ⟨q, -, rfl⟩ := List.mem_map.1 h
    exact ⟨q.2, rfl⟩
  · contradiction

/-! ## The rules -/

/-- The rules with `d` levels to nest keep the world in order. -/
structure Upheld (strict : Bool) (d : Nat) : Prop where
  evaluate : ∀ scope e, e.obeys (.plain strict) = true →
    Delivers strict none (evaluate d scope e)
  evaluateAll : ∀ scope xs, exprsObey (.plain strict) xs = true →
    Upholds strict none (evaluateAll d scope xs) fun vs => ∀ v ∈ vs, v.Fits strict
  execute : ∀ scope inLoop s, s.obeys (.plain strict) inLoop = true →
    Delivers strict none (execute d scope s)
  executeAll : ∀ scope inLoop body, stmtsObey (.plain strict) inLoop body = true →
    Upholds strict none (executeAll d scope body)
  defineClass : ∀ scope c, (Stmt.classDef c).obeys (.plain strict) false = true →
    Delivers strict none (defineClass d scope c)
  runMethod : ∀ self m args, stmtsObey (.plain strict) false m.body = true →
    (∀ v ∈ args, v.Fits strict) → Delivers strict none (runMethod d self m args)
  callMethod : ∀ receiver name args inside, (∀ v ∈ args, v.Fits strict) →
    Delivers strict none (callMethod d receiver name args inside)
  callStatic : ∀ owner name args, (∀ v ∈ args, v.Fits strict) →
    Delivers strict none (callStatic d owner name args)
  apply : Library.CallsUphold strict none (apply d)

namespace Upheld

variable {d : Nat}

theorem zero : Upheld strict 0 where
  evaluate _ _ _ := by
    rw [evaluate_zero]
    exact .failing _
  evaluateAll _ xs _ := by
    cases xs with
    | nil =>
      rw [ScriptLang.evaluateAll]
      exact .pure (by simp)
    | cons =>
      rw [evaluateAll_zero]
      exact .failing _
  execute _ _ _ _ := by
    rw [execute_zero]
    exact .failing _
  executeAll _ _ body _ := by
    cases body with
    | nil =>
      rw [ScriptLang.executeAll]
      exact .pure trivial
    | cons =>
      rw [executeAll_zero]
      exact .failing _
  defineClass _ _ _ := by
    rw [defineClass_zero]
    exact .failing _
  runMethod _ _ _ _ _ := by
    rw [runMethod_zero]
    exact .failing _
  callMethod _ _ _ _ _ := by
    rw [callMethod_zero]
    exact .failing _
  callStatic _ _ _ _ := by
    rw [callStatic_zero]
    exact .failing _
  apply _ _ _ _ := by
    rw [apply_zero]
    exact .failing _

variable (h : Upheld strict d)

include h

theorem evaluate_succ (scope : ScopeId) (e : Expr) (he : e.obeys (.plain strict) = true) :
    Delivers strict none (ScriptLang.evaluate (d + 1) scope e) := by
  rw [ScriptLang.evaluate.eq_def]
  cases e with
  | literal v => exact .pure (Value.fits_of_isPlain (Value.isPlain_ofLiteral v))
  | name x => exact .lookup _ he
  | this => exact .lookup _ (Licence.plain_this strict)
  | array xs =>
    exact (h.evaluateAll scope xs he).bind fun vs hvs => .lift (.newArray (by simpa using hvs))
  | object fs =>
    have hfs := fieldsObey_iff.1 he
    refine (Policy.Ensures.foldlM (S := Entries.Fits strict)
      (fun _ => .nil) fun f hf acc hacc => ?_).bind fun es hes => .lift (.newObject hes)
    exact (h.evaluate scope f.2 (hfs f hf)).bind fun v hv => .pure (hacc.put f.1 hv)
  | function f => exact closure_upholds scope he
  | call f xs =>
    obtain ⟨hf, hxs⟩ := Bool.and_eq_true_iff.1 he
    refine (h.evaluate scope f hf).bind fun v hv => (h.evaluateAll scope xs hxs).bind
      fun args hargs =>
      .ite (h.apply v args hv hargs) ?_
    exact .seq (.lift Still.keeps) <| .failing _
  | member o name => exact (h.evaluate scope o he).bind fun _ hv => member_upholds hv _ _
  | index a i =>
    obtain ⟨ha, hi⟩ := Bool.and_eq_true_iff.1 he
    exact (h.evaluate scope a ha).bind fun _ hv => (h.evaluate scope i hi).seq <|
      .lift (indexValue_keeps (h := ⟨hv⟩) _)
  | unary op e => exact (h.evaluate scope e he).seq <| .lift (applyUnary_keeps _ _)
  | binary op l r =>
    obtain ⟨hl, hr⟩ := Bool.and_eq_true_iff.1 he
    exact (h.evaluate scope l hl).bind fun _ hv => (h.evaluate scope r hr).bind fun _ hw =>
      .lift (applyBinary_keeps _ (h := ⟨hv⟩) (k := ⟨hw⟩))
  | assign x e =>
    exact (h.evaluate scope e he).bind fun _ hv => .seq (.assign _ _ hv) <| .pure hv
  | assignIndex a i e =>
    obtain ⟨hai, hv⟩ := Bool.and_eq_true_iff.1 he
    obtain ⟨_, hi⟩ := Bool.and_eq_true_iff.1 hai
    cases a with
    | name x =>
      exact .seq (.lookup_any _ _) <| (h.evaluate scope i hi).seq <|
        (h.evaluate scope e hv).bind fun _ hv => .seq (.lift (assignIndex_keeps _ _ hv)) <| .pure hv
    | _ => exact .failing _
  | assignMember o name e =>
    obtain ⟨ho, he⟩ := Bool.and_eq_true_iff.1 he
    exact (h.evaluate scope o ho).seq <| (h.evaluate scope e he).bind fun _ hv =>
      (setMember_upholds _ _ hv).seq <| .pure hv
  | new name xs =>
    refine .bind (.classNamed _ _) fun cls _ => (instantiate_upholds _).bind fun l _ =>
      (h.evaluateAll scope xs he).bind fun args hargs => .bind .code fun c hc => ?_
    split
    · next m hm =>
      exact (h.runMethod _ m args (hc.obeys.method? hm).2 hargs).discard.seq <| .leaf rfl
    · exact .leaf rfl

theorem evaluateAll_succ (scope : ScopeId) (xs : List Expr)
    (hxs : exprsObey (.plain strict) xs = true) :
    Upholds strict none (ScriptLang.evaluateAll (d + 1) scope xs) fun vs =>
      ∀ v ∈ vs, v.Fits strict := by
  rw [ScriptLang.evaluateAll]
  exact .mapM fun x hx => h.evaluate scope x (exprsObey_iff.1 hxs x hx)

theorem executeAll_succ (scope : ScopeId) (inLoop : Bool) (body : List Stmt)
    (hbody : stmtsObey (.plain strict) inLoop body = true) :
    Upholds strict none (ScriptLang.executeAll (d + 1) scope body) := by
  rw [ScriptLang.executeAll]
  exact .forM fun s hs => (h.execute scope inLoop s (stmtsObey_iff.1 hbody s hs)).discard

theorem execute_succ (scope : ScopeId) (inLoop : Bool) (s : Stmt)
    (hs : s.obeys (.plain strict) inLoop = true) :
    Delivers strict none (ScriptLang.execute (d + 1) scope s) := by
  have test {e : Expr} (he : e.obeys (.plain strict) = true) :
      Upholds strict none (do truthy (← ScriptLang.evaluate d scope e) : Action Bool) :=
    (h.evaluate scope e he).seq <| .lift Still.keeps
  rw [ScriptLang.execute.eq_def]
  cases s with
  | expr e => exact h.evaluate scope e hs
  | block body => exact (h.executeAll scope inLoop body hs).seq <| .leaf rfl
  | cond c t e =>
    obtain ⟨hct, he⟩ := Bool.and_eq_true_iff.1 hs
    obtain ⟨hc, ht⟩ := Bool.and_eq_true_iff.1 hct
    refine (h.evaluate scope c hc).bind fun v _ => .seq (.lift Still.keeps) <| .ite ?_ ?_
    · exact (h.executeAll scope inLoop t ht).seq <| .leaf rfl
    · cases e with
      | none => exact .leaf rfl
      | some body => exact (h.executeAll scope inLoop body he).seq <| .leaf rfl
  | «while» c body =>
    obtain ⟨hc, hbody⟩ := Bool.and_eq_true_iff.1 hs
    refine .seq (.repeatWhile ?_ _) <| .leaf rfl
    exact (h.evaluate scope c hc).bind fun v _ => .seq (.lift Still.keeps) <|
      .ite (.loopBody (h.executeAll scope true body hbody)) (.pure trivial)
  | doWhile body c =>
    obtain ⟨hbody, hc⟩ := Bool.and_eq_true_iff.1 hs
    refine .seq (.repeatWhile ?_ _) <| .leaf rfl
    exact .seq (.loopBody (h.executeAll scope true body hbody)) <| .ite (test hc) (.pure trivial)
  | «for» i c s body =>
    obtain ⟨hics, hbody⟩ := Bool.and_eq_true_iff.1 hs
    obtain ⟨hic, hstep⟩ := Bool.and_eq_true_iff.1 hics
    obtain ⟨hi, hc⟩ := Bool.and_eq_true_iff.1 hic
    refine .seq (.forM? fun e he => (h.evaluate scope e (exprObeys?_iff.1 hi e he)).discard) <|
      .seq (.repeatWhile (.forRound ?_ ?_ ?_) _) <| .leaf rfl
    · cases c with
      | none => exact .pure trivial
      | some e => exact test hc
    · exact h.executeAll scope true body hbody
    · exact .forM? fun e he => (h.evaluate scope e (exprObeys?_iff.1 hstep e he)).discard
  | «break» => exact .throw trivial
  | «continue» => exact .throw trivial
  | «return» v =>
    cases v with
    | none => exact .throw fun _ => rfl
    | some e => exact (h.evaluate scope e hs).bind fun _ hv => .throw hv
  | classDef c => exact h.defineClass scope c (classDef_obeys_iff.2 (classDef_obeys_iff.1 hs))

theorem defineClass_succ (scope : ScopeId) (c : ClassDef Expr (List Stmt))
    (hc : (Stmt.classDef c).obeys (.plain strict) false = true) :
    Delivers strict none (ScriptLang.defineClass (d + 1) scope c) := by
  obtain ⟨-, hm, hp⟩ := classDef_obeys_iff.1 hc
  rw [ScriptLang.defineClass]
  refine .bind (.mapM? fun _ _ => .classNamed _ _) fun parent _ => .seq (.giveInitials ?_) <|
      .bind (.newClass hm ?_) fun l _ => .seq (.assign _ _ fun _ => rfl) <| .leaf rfl
  · intro p i hmem e he
    exact h.evaluate scope e (propertiesObey_iff.1 hp p (List.fst_mem_of_mem_zipIdx hmem) e he).2
  · intro p hp v hsource
    obtain ⟨i, hi⟩ := source_of_mem_propertyRefs hp
    rw [hi] at hsource
    contradiction

theorem runMethod_succ (self : Option Loc) (m : MethodDef (List Stmt)) (args : List Value)
    (hm : stmtsObey (.plain strict) false m.body = true) (hargs : ∀ v ∈ args, v.Fits strict) :
    Delivers strict none (ScriptLang.runMethod (d + 1) self m args) := by
  have body (scope : ScopeId) : Delivers strict none (do
      bindAll scope m.params args
      catchReturn (ScriptLang.executeAll d scope m.body)) :=
    .seq (.bindAll _ _ hargs) <| .catchReturn (h.executeAll scope false m.body hm)
  rw [ScriptLang.runMethod]
  refine .bind (.openScope _) fun scope _ => ?_
  cases self with
  | none => exact body scope
  | some l => exact .seq (.assign _ _ fun _ => rfl) <| body scope

theorem callMethod_succ (receiver : Loc) (name : String) (args : List Value) (inside : Bool)
    (hargs : ∀ v ∈ args, v.Fits strict) :
    Delivers strict none (ScriptLang.callMethod (d + 1) receiver name args inside) := by
  rw [ScriptLang.callMethod]
  refine .bind (.lift .heap) fun s _ => .bind .code fun c hc => ?_
  split
  · exact .failing _
  · next m hm => exact .ite (.failing _) (h.runMethod _ m args (hc.obeys.method? hm).2 hargs)

theorem callStatic_succ (owner : Loc) (name : String) (args : List Value)
    (hargs : ∀ v ∈ args, v.Fits strict) :
    Delivers strict none (ScriptLang.callStatic (d + 1) owner name args) := by
  rw [ScriptLang.callStatic]
  refine .bind .code fun c hc => ?_
  split
  · exact .failing _
  · next m hm => exact h.runMethod none m args (hc.obeys.method? hm).2 hargs

theorem apply_succ : Library.CallsUphold strict none (ScriptLang.apply (d + 1)) := by
  intro f args hf hargs
  rw [ScriptLang.apply.eq_def]
  dsimp only
  split
  · refine .bind .code fun c hc => ?_
    split
    · exact .leaf rfl
    · next k hk =>
      exact .bind (.openScope _) fun scope _ => .seq (.bindGiven _ _ hargs) <|
        .catchReturn (h.executeAll scope false k.body (hc.obeys.closureAt? hk).2)
  · exact Native.invoke_upholds h.apply hf hargs
  · refine .bind (.lift .heap) fun s hs => ?_
    split
    · exact .leaf rfl
    · exact h.callMethod _ _ _ _ hargs
    · exact h.callStatic _ _ _ hargs
    · next other _ _ hother =>
        exact Library.callDerived_upholds h.apply hargs _ (hs.derivedAt? hother)
  · next receiver name =>
    have hreceiver : receiver.Fits strict := hf
    exact .lift (Value.callBound_keeps hreceiver name hargs)
  · exact .failing _

theorem succ : Upheld strict (d + 1) where
  evaluate := h.evaluate_succ
  evaluateAll := h.evaluateAll_succ
  execute := h.execute_succ
  executeAll := h.executeAll_succ
  defineClass := h.defineClass_succ
  runMethod := h.runMethod_succ
  callMethod := h.callMethod_succ
  callStatic := h.callStatic_succ
  apply := h.apply_succ

omit h in
theorem all (strict : Bool) (d : Nat) : Upheld strict d := by
  induction d with
  | zero => exact zero
  | succ d ih => exact ih.succ

end Upheld

end ScriptLang
