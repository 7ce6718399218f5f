import ScriptLang.Proofs.Calls
import ScriptLang.Proofs.PrivateMembers

/-!
# Static members

Reading a member of a class looks at the static properties and methods of that class alone, while
the call of a static method looks for it along the chain of ancestors. So the chain is never
followed: a class that has a method of the name offers its own, and a class that has none is refused
before any call (`static_members_are_read_from_the_class_alone`).
-/

namespace ScriptLang

open ScriptLang.Action

variable {d : Nat} {scope : ScopeId} {cls k : Loc} {name : String} {w w₁ w' : World}

/-- The static property of a class or its nearest ancestor with a given name. -/
def Code.staticProperty? (s : Code) (l : Loc) (name : String) : Option PropertyRef :=
  s.findInChain (fun c => c.properties.find? fun p => p.isStatic && p.name == name) s.classes.size l

namespace Code

variable {s : Code}

/-- What a class itself offers is the nearest along its chain. -/
theorem findInChain_of_own {α : Type} {find : ClassInfo → Option α} {x : α}
    (hempty : find ⟨"", none, [], []⟩ = none) (h : find (s.classAt cls) = some x) :
    s.findInChain find s.classes.size cls = some x := by
  have hcls : cls < s.classes.size := by
    refine Nat.lt_of_not_le fun hle => ?_
    rw [classAt, Array.getElem?_eq_none hle, Option.getD_none, hempty] at h
    cases h
  obtain ⟨n, hn⟩ := Nat.exists_eq_add_of_lt hcls
  rw [hn, findInChain]
  simp only [h]

theorem staticProperty?_of_own {p : PropertyRef} (h : s.ownStaticProperty? cls name = some p) :
    s.staticProperty? cls name = some p :=
  findInChain_of_own rfl h

/-- A class with a static method of a name offers one of its own for every number of arguments. -/
theorem method?_of_own (h : s.hasOwnStaticMethod cls name = true) (count : Nat) :
    ∃ m ∈ (s.classAt cls).methods, s.method? true cls name count = some m := by
  let named := (s.classAt cls).methods.filter fun m => m.isStatic == true && m.name == name
  have hne : named ≠ [] := by
    obtain ⟨m, hm, hnamed⟩ := List.any_eq_true.1 h
    refine List.ne_nil_of_mem (List.mem_filter.2 ⟨hm, ?_⟩)
    simpa using hnamed
  obtain ⟨m, hm⟩ : ∃ m, ownMethod true name count (s.classAt cls) = some m := by
    refine Option.isSome_iff_exists.1 (Option.isSome_or.trans ?_)
    rw [Bool.or_eq_true]
    exact .inr (List.isSome_head?.2 hne)
  exact ⟨m, Obeys.mem_of_ownMethod hm, findInChain_of_own rfl hm⟩

end Code

/-- A static method that was taken from a class stays bound as it was. -/
theorem World.Lasts.staticMethodCell (h : w.Lasts w')
    (hk : w.heap.cells[k]? = some (.derived (.staticMethod cls name))) :
    w'.heap.cells[k]? = some (.derived (.staticMethod cls name)) := by
  obtain ⟨c', hc', hfixed⟩ := h.cell hk
  rw [hc']
  cases c' with
  | derived d => cases d <;> simp_all [Cell.fixed]
  | _ => simp [Cell.fixed] at hfixed

/-- Reading a member of a class does not depend on how the class is written. -/
theorem evaluate_classMember (name : String) {o : Expr}
    (hrun : evaluate d scope o w = .ok (.class cls) w₁) :
    evaluate (d + 1) scope (.member o name) w = classMember cls name w₁ := by
  by_cases ho : o = .this
  · subst ho
    rw [evaluate]
    exact bind_ok hrun
  · exact evaluate_member ho hrun

theorem classMember_eq (cls : Loc) (name : String) (w : World) : classMember cls name w =
    (match w.code.ownStaticProperty? cls name with
      | some p => pure (w.code.propertyValue p)
      | none =>
        if w.code.hasOwnStaticMethod cls name then newDerived (.staticMethod cls name)
        else fail (.noStaticMember (w.code.classAt cls).name name) : Action Value) w := rfl

/-- What a static member is. Let `o` stand for a class. A static property of its own is read, and it
is the nearest along the chain of ancestors. Else, if the class has a static method of the name,
that is taken, and calling it runs the one for the number of arguments, which is the nearest along
the chain and one of the class itself. Else reading the member and calling it fail, before the
arguments are evaluated, whatever the ancestors of the class have. -/
theorem static_members_are_read_from_the_class_alone {d : Nat} {scope : ScopeId} {o : Expr}
    {cls : Loc} {w w₁ : World} (name : String)
    (hrun : evaluate (d + 1) scope o w = .ok (.class cls) w₁) :
    (∀ p, w₁.code.ownStaticProperty? cls name = some p →
      w₁.code.staticProperty? cls name = some p ∧
      evaluate (d + 2) scope (.member o name) w = .ok (w₁.code.propertyValue p) w₁) ∧
    (w₁.code.ownStaticProperty? cls name = none →
      (w₁.code.hasOwnStaticMethod cls name = true → ∃ k w₂,
        evaluate (d + 2) scope (.member o name) w = .ok (.derived k) w₂ ∧
        ∀ xs args w₃, evaluateAll (d + 2) scope xs w₂ = .ok args w₃ →
          ∃ m ∈ (w₁.code.classAt cls).methods, w₁.code.method? true cls name xs.length = some m ∧
            evaluate (d + 3) scope (.call (.member o name) xs) w = runMethod d none m args w₃) ∧
      (w₁.code.hasOwnStaticMethod cls name = false →
        (Fault.noStaticMember (w₁.code.classAt cls).name name).kind = .attribute ∧
        evaluate (d + 2) scope (.member o name) w =
          .error (.fault (.noStaticMember (w₁.code.classAt cls).name name)) w₁ ∧
        ∀ xs, evaluate (d + 3) scope (.call (.member o name) xs) w =
          .error (.fault (.noStaticMember (w₁.code.classAt cls).name name)) w₁)) := by
  have hread := evaluate_classMember name hrun
  rw [classMember_eq] at hread
  refine ⟨fun p hp => ⟨Code.staticProperty?_of_own hp, ?_⟩, fun hnone =>
    ⟨fun hmethod => ?_, fun hno => ?_⟩⟩
  · rw [hread, hp]
    rfl
  · rw [hnone, hmethod] at hread
    let w₂ := w₁.withHeap (w₁.heap.alloc (.derived (.staticMethod cls name))).2
    have htaken : evaluate (d + 2) scope (.member o name) w = .ok (.derived w₁.heap.cells.size)
        w₂ := hread
    refine ⟨w₁.heap.cells.size, w₂, htaken, fun xs args w₃ hargs => ?_⟩
    obtain ⟨m, hm, hoffered⟩ := Code.method?_of_own hmethod xs.length
    refine ⟨m, hm, hoffered, ?_⟩
    -- the arguments leave the method as it was taken, and the class as it was
    have hlasts := lasts_evaluateAll (d + 2) scope xs w₂
    rw [Action.final, hargs] at hlasts
    have hk := hlasts.staticMethodCell (k := w₁.heap.cells.size) Array.getElem?_push_size
    have hderived : w₃.heap.derivedAt? w₁.heap.cells.size = some (.staticMethod cls name) := by
      rw [Heap.derivedAt?, hk]
    rw [← evaluateAll_length hargs] at hoffered
    rw [evaluate_call htaken]
    exact (bind_ok hargs).trans (apply_takenStatic hderived (hlasts.method? hoffered))
  · rw [hnone, hno] at hread
    refine ⟨rfl, hread, fun xs => ?_⟩
    rw [evaluate]
    exact bind_error hread

/-- A world with a class `A` that has a static property and a static method, and an heir `B`
without. -/
def staticHeir : World where
  code := {
    scopes := #[{
      vars := (({} : Std.HashMap String Value).insert "A" (.class 0)).insert "B" (.class 1) }]
    classes := #[
      { name := "A", parent := none
        methods := [⟨"f", [], [.return (some (.literal (.whole 1)))], .everyone, true⟩]
        properties := [⟨"p", .everyone, true, .copied (.int 5)⟩] },
      { name := "B", parent := some 0, methods := [], properties := [] }] }

theorem staticHeir_evaluate (d : Nat) :
    evaluate (d + 1) globalScope (.name "A") staticHeir = .ok (.class 0) staticHeir ∧
    evaluate (d + 1) globalScope (.name "B") staticHeir = .ok (.class 1) staticHeir := by
  constructor <;> apply evaluate_name <;>
    simp [Code.lookup, Code.lookupFrom, staticHeir, globalScope, Std.HashMap.getElem_insert]

/-- The members of the class itself are found. -/
theorem staticHeir_own_members :
    evaluate 9 globalScope (.member (.name "A") "p") staticHeir = .ok (.int 5) staticHeir ∧
    ∃ w, evaluate 9 globalScope (.call (.member (.name "A") "f") []) staticHeir =
      runMethod 6 none ⟨"f", [], [.return (some (.literal (.whole 1)))], .everyone, true⟩ [] w := by
  refine ⟨((static_members_are_read_from_the_class_alone "p" (staticHeir_evaluate 7).1).1 _ rfl).2,
    ?_⟩
  obtain ⟨k, w₂, -, hcall⟩ :=
    ((static_members_are_read_from_the_class_alone "f" (staticHeir_evaluate 6).1).2 rfl).1 rfl
  have hargs : evaluateAll 8 globalScope [] w₂ = .ok [] w₂ := by
    rw [evaluateAll]
    rfl
  obtain ⟨m, -, hm, hrun⟩ := hcall [] [] w₂ hargs
  cases hm
  exact ⟨w₂, hrun⟩

/-- The heir is offered both along its chain, and has neither. -/
theorem staticHeir_inherits_nothing :
    (∃ p, staticHeir.code.staticProperty? 1 "p" = some p) ∧
    (∃ m, staticHeir.code.method? true 1 "f" 0 = some m) ∧
    evaluate 9 globalScope (.member (.name "B") "p") staticHeir =
      .error (.fault (.noStaticMember "B" "p")) staticHeir ∧
    evaluate 9 globalScope (.call (.member (.name "B") "f") []) staticHeir =
      .error (.fault (.noStaticMember "B" "f")) staticHeir := by
  refine ⟨⟨_, rfl⟩, ⟨_, rfl⟩, evaluate_classMember "p" (staticHeir_evaluate 7).2, ?_⟩
  rw [evaluate]
  exact bind_error (evaluate_classMember "f" (staticHeir_evaluate 6).2)

end ScriptLang
