import ScriptLang.Store

/-!
# Overloaded methods

A call picks the first method with the right number of parameters in the nearest class that declares
the name. So the order in which a class declares its methods only matters among those of one name
and number of parameters, and static and other methods have nothing to do with each other.
-/

namespace ScriptLang

/-- The methods of one kind with a name and a number of parameters, in the order of their
declaration. -/
def ClassInfo.overloads (c : ClassInfo) (isStatic : Bool) (name : String) (count : Nat) :
    List (MethodDef (List Stmt)) :=
  c.methods.filter fun m => m.params.length == count && (m.isStatic == isStatic && m.name == name)

/-- A class declares a name for methods of one kind. -/
def ClassInfo.declares (isStatic : Bool) (name : String) (c : ClassInfo) : Bool :=
  c.methods.any fun m => m.isStatic == isStatic && m.name == name

/-- Two classes have the same parent and the same overloads of one kind, in the same order for each
name and number of parameters. -/
structure ClassInfo.Reordered (isStatic : Bool) (c c' : ClassInfo) : Prop where
  parent : c'.parent = c.parent
  overloads : ∀ name count, c'.overloads isStatic name count = c.overloads isStatic name count

namespace Code

/-- The nearest class of a chain that declares a name. -/
def declaring? (s : Code) (isStatic : Bool) (l : Loc) (name : String) : Option ClassInfo :=
  s.findInChain (fun c => if c.declares isStatic name then some c else none) s.classes.size l

variable {isStatic : Bool} {name : String} {count : Nat} {c c' k : ClassInfo}
  {m : MethodDef (List Stmt)}

theorem ownMethod_of_overload (h : (c.overloads isStatic name count).head? = some m) :
    ownMethod isStatic name count c = some m := by
  rw [ClassInfo.overloads, ← List.filter_filter, List.head?_filter] at h
  rw [ownMethod, h]
  rfl

theorem ownMethod_of_not_declares (h : c.declares isStatic name = false) :
    ownMethod isStatic name count c = none := by
  have hnone : (c.methods.filter fun m => m.isStatic == isStatic && m.name == name) = [] := by
    simpa [ClassInfo.declares, List.filter_eq_nil_iff] using h
  rw [ownMethod, hnone]
  rfl

theorem declares_of_reordered (h : c.Reordered isStatic c')
    (hnot : c.declares isStatic name = false) : c'.declares isStatic name = false := by
  rw [Bool.eq_false_iff]
  intro hdeclares
  obtain ⟨m, hm, hkind⟩ := List.any_eq_true.1 hdeclares
  have hmem : m ∈ c'.overloads isStatic name m.params.length := by
    simpa [ClassInfo.overloads, hm] using hkind
  rw [h.overloads] at hmem
  rw [ClassInfo.declares, List.any_eq_false] at hnot
  exact hnot m (List.mem_filter.1 hmem).1 hkind

/-- Before and after methods are reordered, a call picks the first overload with the right number of
parameters in the nearest class that declares the name. -/
theorem overload_choice_ignores_order {s s' : Code} (hsize : s'.classes.size = s.classes.size)
    (h : ∀ l, (s.classAt l).Reordered isStatic (s'.classAt l)) {l : Loc}
    (hnear : s.declaring? isStatic l name = some k)
    (hfirst : (k.overloads isStatic name count).head? = some m) :
    s.method? isStatic l name count = some m ∧ s'.method? isStatic l name count = some m := by
  rw [declaring?] at hnear
  rw [method?, method?, hsize]
  generalize s.classes.size = fuel at hnear ⊢
  -- along the chain, which is the same in both: a class that declares the name ends the search
  induction fuel generalizing l with
  | zero => cases hnear
  | succ fuel ih =>
    rw [findInChain] at hnear ⊢
    rw [findInChain]
    cases hdeclares : (s.classAt l).declares isStatic name with
    | true =>
      obtain rfl : s.classAt l = k := by simpa [hdeclares] using hnear
      have hfirst' : ((s'.classAt l).overloads isStatic name count).head? = some m := by
        rw [(h l).overloads, hfirst]
      simp [ownMethod_of_overload hfirst, ownMethod_of_overload hfirst']
    | false =>
      have hdeclares' := declares_of_reordered (h l) hdeclares
      simp only [hdeclares, Bool.false_eq_true, if_false] at hnear
      simp only [ownMethod_of_not_declares hdeclares, ownMethod_of_not_declares hdeclares',
        (h l).parent]
      cases hparent : (s.classAt l).parent with
      | none => simp [hparent] at hnear
      | some p => exact ih (by simpa [hparent] using hnear)

/-- A class with the methods of a list. -/
def oneClass (methods : List (MethodDef (List Stmt))) : Code where
  classes := #[{ name := "A", parent := none, methods, properties := [] }]

def methodOf (params : List String) : MethodDef (List Stmt) where
  name := "f"
  params
  body := []

theorem oneClass_chooses :
    (oneClass [methodOf ["x"], methodOf []]).method? false 0 "f" 0 = some (methodOf []) ∧
      (oneClass [methodOf [], methodOf ["x"]]).method? false 0 "f" 0 = some (methodOf []) := by
  refine overload_choice_ignores_order rfl (fun l => ?_) rfl rfl
  cases l with
  | succ l => exact ⟨rfl, fun _ _ => rfl⟩
  | zero =>
    refine ⟨rfl, fun name count => ?_⟩
    obtain _ | _ | count := count <;> rfl

end Code

end ScriptLang
