import ScriptLang.Proofs.Calls
import ScriptLang.Proofs.CoreCalls
import ScriptLang.Proofs.StoredValues

/-!
# Worlds that only grow

What has no effect may still use memory. It adds cells, scopes, functions and classes, and leaves
all that was there as it was. A function that makes an array does no more than that.
-/

namespace ScriptLang

open ScriptLang.Action

/-- What is new later was new before. -/
theorem Setting.Grows.fresh {s s₁ : Setting} {l : Loc} (h : s.Grows s₁)
    (hnew : s₁.heap.cells[l]? = none) : s.heap.cells[l]? = none := by
  cases hc : s.heap.cells[l]? with
  | none => rfl
  | some c =>
    rw [h.cells l c hc] at hnew
    contradiction

/-- Nothing that was there has changed. -/
structure World.Extends (w w' : World) : Prop where
  setting : w.toSetting.Grows w'.toSetting
  scopes : ∀ (i : Nat) (s : Scope), w.code.scopes[i]? = some s → w'.code.scopes[i]? = some s
  functions : ∀ (i : Nat) (c : Closure), w.code.functions[i]? = some c →
    w'.code.functions[i]? = some c
  classes : ∀ (i : Nat) (c : ClassInfo), w.code.classes[i]? = some c → w'.code.classes[i]? = some c
  values : w'.code.propertyValues = w.code.propertyValues
  sites : w'.code.sites = w.code.sites

namespace World

variable {w w₁ w₂ : World} {c : Cell} {l : Loc} {xs : Array Value}

theorem Extends.refl (w : World) : w.Extends w where
  setting := .refl _
  scopes _ _ h := h
  functions _ _ h := h
  classes _ _ h := h
  values := rfl
  sites := rfl

theorem Extends.trans (h₁ : w.Extends w₁) (h₂ : w₁.Extends w₂) : w.Extends w₂ where
  setting := h₁.setting.trans h₂.setting
  scopes i s h := h₂.scopes i s (h₁.scopes i s h)
  functions i c h := h₂.functions i c (h₁.functions i c h)
  classes i c h := h₂.classes i c (h₁.classes i c h)
  values := h₂.values.trans h₁.values
  sites := h₂.sites.trans h₁.sites

theorem Extends.cell (h : w.Extends w₁) (hc : w.heap.cells[l]? = some c) :
    w₁.heap.cells[l]? = some c :=
  h.setting.cells l c hc

theorem Extends.fresh (h : w.Extends w₁) (hnew : w₁.heap.cells[l]? = none) :
    w.heap.cells[l]? = none :=
  h.setting.fresh hnew

theorem Extends.of_setting {s : Setting} (h : w.toSetting.Grows s) :
    w.Extends { s with code := w.code } where
  setting := h
  scopes _ _ h := h
  functions _ _ h := h
  classes _ _ h := h
  values := rfl
  sites := rfl

theorem Extends.pushScope (w : World) (s : Scope) : w.Extends (w.pushScope s) where
  setting := .refl _
  scopes _ _ hi := (Effect.getElem?_push (Array.getElem?_eq_some_iff.1 hi).1).trans hi
  functions _ _ h := h
  classes _ _ h := h
  values := rfl
  sites := rfl

/-- The world with one more cell. -/
def pushCell (w : World) (c : Cell) : World :=
  { w with heap := { w.heap with cells := w.heap.cells.push c } }

theorem Extends.pushCell (w : World) (c : Cell) : w.Extends (w.pushCell c) where
  setting := .push _ c
  scopes _ _ h := h
  functions _ _ h := h
  classes _ _ h := h
  values := rfl
  sites := rfl

theorem pushCell_new (w : World) (c : Cell) :
    (w.pushCell c).heap.cells[w.heap.cells.size]? = some c := by
  simp [World.pushCell]

theorem getElem?_size (w : World) : w.heap.cells[w.heap.cells.size]? = none := by
  simp

end World

/-- An action ends in a new array of some items, and nothing that was there has changed. -/
def Makes (x : Action Value) (w : World) (xs : List Value) : Prop :=
  ∃ l w', x w = .ok (.array l) w' ∧ w.Extends w' ∧ w.heap.cells[l]? = none ∧
    w'.heap.cells[l]? = some (.array xs.toArray)

/-- An action ends in a new array of new arrays, which have the items of some lists, and nothing
that was there has changed. -/
def MakesParts (x : Action Value) (w : World) (parts : List (List Value)) : Prop :=
  ∃ l ls w', x w = .ok (.array l) w' ∧ w.Extends w' ∧ w.heap.cells[l]? = none ∧
    w'.heap.cells[l]? = some (.array (ls.map Value.array).toArray) ∧
    List.Forall₂ (fun k xs => w.heap.cells[k]? = none ∧
      w'.heap.cells[k]? = some (.array xs.toArray)) ls parts

section Arrays

variable {x : Action Value} {w w' : World} {xs : List Value}

theorem newArray_ok (xs : Array Value) (w : World) :
    (liftM (newArray xs) : Action Value) w = .ok (.array w.heap.cells.size)
      (w.pushCell (.array xs)) :=
  rfl

theorem makes_newArray (xs : List Value) (w : World) : Makes (liftM (newArray xs.toArray)) w xs :=
  ⟨_, _, newArray_ok xs.toArray w, .pushCell w _, w.getElem?_size, w.pushCell_new _⟩

/-- What an action makes after another that changes nothing, the two make together. -/
theorem Makes.after {α : Type} {y : Action α} {f : α → Action Value} {a : α} (hy : y w = .ok a w')
    (hgrows : w.Extends w') (hf : Makes (f a) w' xs) : Makes (y >>= f) w xs := by
  obtain ⟨l, w'', hrun, hlater, hnew, hcell⟩ := hf
  exact ⟨l, w'', (bind_ok hy).trans hrun, hgrows.trans hlater, hgrows.fresh hnew, hcell⟩

/-- What is made is told by how the action ends. -/
theorem Makes.congr {y : Action Value} (h : Makes x w xs) (hxy : y w = x w) : Makes y w xs := by
  unfold Makes at h ⊢
  rwa [hxy]

/-- A routine makes what another makes that ends alike. -/
theorem Makes.lift {r q : Routine Value} (h : Makes (liftM r) w xs)
    (hrq : q w.toSetting = r w.toSetting) : Makes (liftM q) w xs := by
  refine h.congr ?_
  show q.perform w = r.perform w
  unfold Routine.perform
  rw [hrq]

theorem MakesParts.congr {y : Action Value} {parts : List (List Value)} (h : MakesParts x w parts)
    (hxy : y w = x w) : MakesParts y w parts := by
  unfold MakesParts at h ⊢
  rwa [hxy]

/-- A call makes what the function makes of the arguments. -/
theorem Makes.core {d : Nat} {f : CoreFn} {given args : List Value}
    (hargs : f.signature.bind f.name given = .ok args)
    (h : Makes (Library.runCore (apply d) f args) w xs) :
    Makes (apply (d + 1) (.native (.core f)) given) w xs :=
  h.congr (apply_core hargs)

theorem MakesParts.core {d : Nat} {f : CoreFn} {given args : List Value} {parts : List (List Value)}
    (hargs : f.signature.bind f.name given = .ok args)
    (h : MakesParts (Library.runCore (apply d) f args) w parts) :
    MakesParts (apply (d + 1) (.native (.core f)) given) w parts :=
  h.congr (apply_core hargs)

end Arrays

end ScriptLang
