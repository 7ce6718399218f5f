import ScriptLang.Proofs.Effects

/-!
# Functions that call functions

The functions of the language and its packages work on the heap, on what is outside the program, and
by calling the functions they are given. So each of them stays within whatever bounds its calls stay
within. Only the copies of classes go into the code besides, and they take their methods from
classes that are there.
-/

namespace ScriptLang

open ScriptLang.Action

variable {lic : Licence} {own : Own} {exits : Exits}

/-! ## Copies -/

namespace Library

variable {copy : Copies → Value → Action (Value × Copies)}

instance copyList_within [h : ∀ done v, Within lic own exits (copy done v)] (vs : List Value)
    (done : Copies) : Within lic own exits (copyList copy vs done) := by
  induction vs generalizing done with
  | nil => exact .pure trivial
  | cons v vs ih => exact (h done v).bind fun r _ => (ih r.2).give

/-- The copy of a class is written again once the values of its properties are copied. -/
theorem fillClass_within {k : Loc} (h : ∀ done v, Within lic (.copy k) exits (copy done v))
    (ps : List PropertyRef) (done : Copies) :
    Within lic (.copy k) exits (fillClass copy ps k done) :=
  Within.code.seq <| (copyList_within _ _).seq <| .bind (Within.setProperties k _) fun _ _ =>
    .pure trivial

theorem copyClass_within (h : ∀ done v, Within lic .nothing exits (copy done v)) (done : Copies)
    (l : Loc) : Within lic .nothing exits (copyClass copy done l) := by
  unfold copyClass
  split
  · exact .pure trivial
  · refine Within.code.bind fun c hc => (copyList_within _ _).bind fun r _ => ?_
    dsimp only
    split
    · exact .pure trivial
    · refine Within.inNewClass (fun _ _ => hc.classAt l) (fun c p hp => ?_) fun k =>
        fillClass_within (fun done v => (h done v).mono) _ _
      obtain ⟨v, -, hv⟩ := Option.bind_eq_some_iff.1 hp
      exact Code.lt_of_class? hv

theorem copyDeep_within (d : Nat) (done : Copies) (v : Value) :
    Within lic .nothing exits (copyDeep d done v) := by
  induction d generalizing done v with
  | zero => exact Within.lift _
  | succ d ih =>
    have classes := copyClass_within ih
    rw [copyDeep.eq_def]
    dsimp only
    exact Within.parts

instance deepCopy_within (v : Value) : Within lic own exits (deepCopy v) :=
  Within.mono (copyDeep_within _ _ _).give

/-! ## Functions over arrays -/

section

variable {call : Caller} [h : ∀ f args, Within lic own exits (call f args)]

instance runCore_within (f : CoreFn) (args : List Value) :
    Within lic own exits (runCore call f args) := by
  unfold runCore filter map forEach reduce every someOf find findIndex groupBy groupStep
    sortBy takeWhile dropWhile partition countBy countStep times
  exact Within.parts

/-! ## Functions made from functions -/

instance callDerived_within (l : Loc) (d : Derived) (args : List Value) :
    Within lic own exits (callDerived call l d args) := by
  unfold callDerived callCurried callWaiting chained
  exact Within.parts

end

end Library

/-! ## Functions of packages -/

section

variable {call : Caller} [h : ∀ f args, Within lic own exits (call f args)]

instance Package.watch_within (path callback interval : Value) (n : Nat) (last : Float) :
    Within lic own exits (Package.watch call path callback interval n last) := by
  induction n generalizing last with
  | zero => exact .throw ⟨nofun, nofun⟩
  | succ n ih =>
    unfold Package.watch
    exact Within.parts

instance Native.invoke_within (f : Native) (args : List Value) :
    Within lic own exits (f.invoke call args) := by
  unfold Native.invoke Native.run Package.runFiles
  exact Within.parts

end

/-! ## Members -/

instance Value.ownMember?_within (v : Value) (name : String) :
    Within lic own exits (v.ownMember? name) := by
  unfold Value.ownMember?
  exact Within.parts

instance Value.member?_within (v : Value) (name : String) :
    Within lic own exits (v.member? name) := by
  refine (Value.ownMember?_within v name).bind fun w _ => ?_
  split
  · exact .pure trivial
  · exact .ite (.throw ⟨nofun, nofun⟩) (.pure trivial)

namespace Action

instance classMember_within (l : Loc) (name : String) :
    Within lic own exits (classMember l name) := by
  unfold classMember
  exact Within.parts

instance member_within (v : Value) (name : String) (inside : Bool) :
    Within lic own exits (member v name inside) := by
  unfold member
  exact Within.parts

instance setMember_within (v : Value) (name : String) (new : Value) :
    Within lic own exits (setMember v name new) := by
  unfold setMember setProperty
  exact Within.parts

theorem closure_within (scope : ScopeId) {f : FunctionDef (List Stmt)}
    (hf : (Expr.function f).obeys lic = true) :
    Within lic (.scope scope) exits (closure scope f) := by
  obtain ⟨hname, hbody⟩ := function_obeys_iff.1 hf
  have made : Within lic (.scope scope) exits (newFunction ⟨f.name, f.params, f.body, scope⟩) :=
    .newFunction rfl hbody
  unfold closure
  refine made.seq ?_
  split
  · next x hx => exact (Within.assign scope (hname x hx) _).give
  · exact .pure trivial

instance instantiate_within (cls : Loc) : Within lic own exits (instantiate cls) := by
  unfold instantiate
  exact Within.parts

end Action

end ScriptLang
