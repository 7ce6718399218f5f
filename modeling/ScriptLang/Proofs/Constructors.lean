import ScriptLang.Proofs.PrivateMembers
import ScriptLang.Proofs.Returns

/-!
# Constructors

An instance is made of the class that a variable holds, but its constructor is the method that is
called as the variable is (`constructor_is_named_by_the_word`).
-/

namespace ScriptLang

open ScriptLang.Action

variable {d : Nat} {scope : ScopeId} {cls l : Loc} {w w₁ w₂ w' : World} {x y : String}

/-- What a class offers for a name lasts, and so does that it offers nothing. -/
theorem World.Lasts.method?_eq (h : w.Lasts w') (hw : w.code.Rooted)
    (hcls : cls < w.code.classes.size) (isStatic : Bool) (name : String) (count : Nat) :
    w'.code.method? isStatic cls name count = w.code.method? isStatic cls name count := by
  obtain ⟨ps, hchain, -, hlen, hle⟩ := Chain.exists_of_lt hw.classes cls
  have hsame (k : Loc) (hk : k ∈ ps) : w'.code.classAt k = w.code.classAt k :=
    h.classAt (Nat.lt_of_le_of_lt (hle k hk) hcls)
  have hchain' : Chain w'.code.parentClass cls ps :=
    hchain.congr fun k hk => congrArg ClassInfo.parent (hsame k hk)
  have hfind (c : Code) : (ps.findSome? fun k => Code.ownMethod isStatic name count (c.classAt k)) =
      (ps.map c.classAt).findSome? (Code.ownMethod isStatic name count) := by
    rw [List.findSome?_map]
    rfl
  rw [Code.method?_eq hchain' hlen, Code.method?_eq hchain hlen, hfind, hfind,
    List.map_congr_left hsame]

/-- Making an instance runs the method that its class offered for the word before. -/
theorem evaluate_new (hw : w.code.Rooted) (hcls : cls < w.code.classes.size)
    (hx : w.code.lookup scope x = some (.class cls)) (hl : instantiate cls w = .ok l w₁)
    (xs : List Expr) :
    evaluate (d + 2) scope (.new x xs) w =
      (evaluateAll (d + 1) scope xs >>= construct (d + 1) l (w.code.method? false cls x xs.length))
        w₁ := by
  have hnamed := classNamed_ok hx hcls
  have hlasts := lasts_evaluateAll (d + 1) scope xs w₁
  cases hargs : evaluateAll (d + 1) scope xs w₁ with
  | error s w₂ =>
    rw [evaluate, bind_error hargs]
    exact (bind_ok hnamed).trans ((bind_ok hl).trans (bind_error hargs))
  | ok args w₂ =>
    rw [Action.final, hargs] at hlasts
    -- a new instance is no change of the classes, and the arguments change none that was there
    obtain ⟨l', w₁', hl', hcode, -⟩ := instantiate_eq cls w
    obtain ⟨rfl, rfl⟩ : l' = l ∧ w₁' = w₁ := EStateM.Result.ok.inj (hl'.symm.trans hl)
    rw [← hcode] at hw hcls
    rw [evaluate_new_eq hnamed hl hargs, bind_ok hargs, evaluateAll_length hargs,
      hlasts.method?_eq hw hcls, hcode]

/-- An instance is made of the class that a word stands for, with the properties that the class
itself declares, and then its constructor runs: the method that the class offers for the word. Two
words for one class do the same if the class offers the same method for both; and where it offers
one for `x` and none for `y`, making an instance by `x` runs that method, and by `y` ends as soon as
the arguments are evaluated. -/
theorem constructor_is_named_by_the_word (d : Nat) (scope : ScopeId) {cls : Loc} {w : World}
    (hw : w.code.Rooted) (hcls : cls < w.code.classes.size) (xs : List Expr) :
    ∃ l w₁, instantiate cls w = .ok l w₁ ∧ w₁.code = w.code ∧
      (∀ name, (w₁.heap.instanceAt l).2.lookup name =
        (w.code.ownProperty? cls name).map w.code.propertyValue) ∧
      ∀ x, w.code.lookup scope x = some (.class cls) →
        evaluate (d + 2) scope (.new x xs) w =
          (evaluateAll (d + 1) scope xs >>=
            construct (d + 1) l (w.code.method? false cls x xs.length)) w₁ ∧
        ∀ y, w.code.lookup scope y = some (.class cls) →
          (w.code.method? false cls x xs.length = w.code.method? false cls y xs.length →
            evaluate (d + 2) scope (.new x xs) w = evaluate (d + 2) scope (.new y xs) w) ∧
          ∀ m args w₂, w.code.method? false cls x xs.length = some m →
            w.code.method? false cls y xs.length = none →
            evaluateAll (d + 1) scope xs w₁ = .ok args w₂ →
            evaluate (d + 2) scope (.new x xs) w =
              outcomeOfNew l (methodBody d (some l) m args w₂) ∧
            evaluate (d + 2) scope (.new y xs) w = .ok (.instance l) w₂ := by
  obtain ⟨l, w₁, hl, hcode, hprops⟩ := instantiate_eq cls w
  refine ⟨l, w₁, hl, hcode, hprops, fun x hx => ?_⟩
  have hnew := evaluate_new (d := d) hw hcls hx hl xs
  refine ⟨hnew, fun y hy => ?_⟩
  have hnew' := evaluate_new (d := d) hw hcls hy hl xs
  refine ⟨fun hsame => by rw [hnew, hnew', hsame], fun m args w₂ hm hnone hargs => ⟨?_, ?_⟩⟩
  · rw [hnew, hm, bind_ok hargs, construct_some]
  · rw [hnew', hnone, bind_ok hargs]
    rfl

/-- A world with a class under its own name and another, whose constructor sets a property. -/
def twoWords : World where
  code := {
    scopes := #[{
      vars := (({} : Std.HashMap String Value).insert "A" (.class 0)).insert "B" (.class 0) }]
    classes := #[{
      name := "A", parent := none
      methods :=
      [⟨"A", [], [.expr (.assignMember .this "v" (.literal (.whole 1)))], .everyone, false⟩]
      properties := [] }] }

theorem twoWords_rooted : twoWords.code.Rooted where
  global := by decide
  scopes i p h := by
    cases i with
    | zero => cases h
    | succ i => simp [Code.parentScope, twoWords] at h
  functions f hf := by simp [twoWords] at hf
  classes l p h := by
    cases l with
    | zero => cases h
    | succ l => simp [Code.parentClass, Code.classAt, twoWords] at h

theorem twoWords_lookup : twoWords.code.lookup globalScope "A" = some (.class 0) ∧
    twoWords.code.lookup globalScope "B" = some (.class 0) := by
  simp [Code.lookup, Code.lookupFrom, twoWords, globalScope, Std.HashMap.getElem_insert]

/-- Under the other name the constructor does not run. -/
theorem other_word_constructs_nothing :
    ∃ l w₁, evaluate 9 globalScope (.new "B" []) twoWords = .ok (.instance l) w₁ ∧
      (w₁.heap.instanceAt l).2.lookup "v" = none := by
  have hcls : 0 < twoWords.code.classes.size := by decide
  obtain ⟨l, w₁, -, -, hprops, h⟩ :=
    constructor_is_named_by_the_word 7 globalScope twoWords_rooted hcls []
  have hargs : evaluateAll 8 globalScope [] w₁ = .ok [] w₁ := by
    rw [evaluateAll]
    rfl
  obtain ⟨-, hnone⟩ := ((h "A" twoWords_lookup.1).2 "B" twoWords_lookup.2).2 _ [] w₁ rfl rfl hargs
  exact ⟨l, w₁, hnone, hprops "v"⟩

/-- Under its own name it does, and so the two words make different instances of one class. -/
theorem words_make_different_instances :
    ∃ l w₁ w₂, evaluate 9 globalScope (.new "A" []) twoWords = .ok (.instance l) w₁ ∧
      evaluate 9 globalScope (.new "B" []) twoWords = .ok (.instance l) w₂ ∧
      (w₁.heap.instanceAt l).2 = [("v", .int 1)] ∧ (w₂.heap.instanceAt l).2 = [] := by
  have hcls : 0 < twoWords.code.classes.size := by decide
  let w := twoWords.withHeap { cells := #[.instance 0 "A" []] }
  have hl : instantiate 0 twoWords = .ok 0 w := rfl
  have hargs : evaluateAll 8 globalScope [] w = .ok [] w := by
    rw [evaluateAll]
    rfl
  -- the body runs in a scope of its own, where `this` is the instance
  let w' : World := { w with
    code :=
      Code.setVar { w.code with scopes := w.code.scopes.push { parent := some globalScope } } 1
      "this" (.instance 0) }
  have hbody : methodBody 7 (some 0)
      ⟨"A", [], [.expr (.assignMember .this "v" (.literal (.whole 1)))], .everyone, false⟩ [] w =
      .ok () (w'.withHeap (w'.heap.set 0 (.instance 0 "A" [("v", .int 1)]))) := by
    have hthis : w'.code.lookup 1 "this" = some (.instance 0) := by
      simp [w', w, twoWords, World.withHeap, Code.setVar, Code.lookup, Code.lookupFrom]
    have hset : evaluate 5 1 (.assignMember .this "v" (.literal (.whole 1))) w' =
        .ok (.int 1) (w'.withHeap (w'.heap.set 0 (.instance 0 "A" [("v", .int 1)]))) := by
      have hself : evaluate 4 1 .this w' = .ok (.instance 0) w' := by
        rw [evaluate]
        exact lookup_ok hthis
      rw [evaluate]
      refine (bind_ok hself).trans ((bind_ok (evaluate_literal 3 1 (.whole 1) w')).trans ?_)
      have hcell : w'.heap.cells[0]? = some (.instance 0 "A" []) := rfl
      exact bind_ok (setMember_instance hcell (.int 1))
    have hrun : executeAll 7 1 [.expr (.assignMember .this "v" (.literal (.whole 1)))] w' =
        .ok () (w'.withHeap (w'.heap.set 0 (.instance 0 "A" [("v", .int 1)]))) := by
      rw [executeAll_cons, discard_eq, bind_assoc, execute]
      exact (bind_ok hset).trans executeAll_nil
    exact (bind_ok rfl).trans ((bind_ok rfl).trans ((bind_ok rfl).trans hrun))
  refine ⟨0, w'.withHeap (w'.heap.set 0 (.instance 0 "A" [("v", .int 1)])), w, ?_, ?_, rfl, rfl⟩
  · have hm : twoWords.code.method? false 0 "A" 0 = some
        ⟨"A", [], [.expr (.assignMember .this "v" (.literal (.whole 1)))], .everyone, false⟩ := rfl
    rw [evaluate_new twoWords_rooted hcls twoWords_lookup.1 hl, bind_ok hargs, List.length_nil, hm,
      construct_some, hbody]
    rfl
  · have hnone : twoWords.code.method? false 0 "B" 0 = none := rfl
    rw [evaluate_new twoWords_rooted hcls twoWords_lookup.2 hl, bind_ok hargs,
      List.length_nil, hnone]
    rfl

end ScriptLang
