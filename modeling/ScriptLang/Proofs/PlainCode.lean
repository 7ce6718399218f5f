import ScriptLang.Proofs.PackageHeaps

/-!
# Worlds of plain data

The code has values too: those of variables, of declared properties and of copied classes. A world
fits when all its values do, in the heap and in the code. Actions keep it so, with what they are
given and what they return fitting as well; and they keep what cells were made from, though they may
give properties to instances and results to derived functions.
-/

namespace ScriptLang

open ScriptLang.Action

variable {k : ClassInfo} {l : Loc} {v : Value}

/-! ## Code that fits -/

/-- Where data is to be plain, no raw function is read by its name. -/
def Licence.plain (strict : Bool) : Licence :=
  .reading fun x => !(strict && CoreFn.all.any fun f => f.isRaw && f.name == x)

theorem Licence.plain_this (strict : Bool) : (Licence.plain strict).names "this" = true := by
  cases strict <;> decide

/-- Where data is to be plain, all values of the code are, except raw functions in variables that
may not be read. -/
structure Code.Fits (strict : Bool) (c : Code) : Prop where
  obeys : c.Obeys (.plain strict)
  vars : ∀ s ∈ c.scopes, ∀ (x : String) (v : Value), s.vars[x]? = some v →
    v.Fits strict ∨ (Licence.plain strict).names x = false ∧ ∃ f, v = .native (.core f)
  copied : ∀ k ∈ c.classes, ∀ p ∈ k.properties, ∀ v, p.source = .copied v → v.Fits strict
  values : ∀ (key : Nat × Nat) (v : Value), c.given? key = some v → v.Fits strict

variable {strict : Bool} {own : Option Loc}

namespace Code.Fits

variable {c : Code} (h : c.Fits strict)

include h

theorem lookup {scope : ScopeId} {x : String} (hv : c.lookup scope x = some v)
    (hx : (Licence.plain strict).names x = true) : v.Fits strict := by
  unfold Code.lookup at hv
  -- by induction on how many scopes may still be searched
  generalize scope + 1 = fuel at hv
  induction fuel generalizing scope with
  | zero => contradiction
  | succ n ih =>
    rw [Code.lookupFrom] at hv
    split at hv
    · contradiction
    · next s hs =>
      split at hv
      · next u hu =>
        cases hv
        refine (h.vars s (Array.mem_of_getElem? hs) x v hu).resolve_right fun hraw => ?_
        rw [hx] at hraw
        exact absurd hraw.1 Bool.noConfusion
      · split at hv
        · exact ih hv
        · contradiction

theorem propertyValue {p : PropertyRef} (hp : ∀ v, p.source = .copied v → v.Fits strict) :
    (c.propertyValue p).Fits strict := by
  unfold Code.propertyValue
  split
  · next site index _ =>
    cases hv : c.given? (site, index) with
    | none => exact fun _ => rfl
    | some v => exact h.values _ v hv
  · next v hsource => exact hp v hsource

theorem classAt (l : Loc) :
    ∀ p ∈ (c.classAt l).properties, ∀ v, p.source = .copied v → v.Fits strict := by
  unfold Code.classAt
  cases hk : c.classes[l]? with
  | none => exact nofun
  | some k => exact h.copied k (Array.mem_of_getElem? hk)

theorem setVar (scope : ScopeId) (x : String) (hv : v.Fits strict) :
    (c.setVar scope x v).Fits strict :=
  { h with
    obeys := ⟨h.obeys.functions, h.obeys.classes⟩
    vars := fun s hs y u hu => by
      obtain ⟨i, hi⟩ := Array.getElem?_of_mem hs
      rw [Code.setVar, Array.getElem?_modify] at hi
      split at hi
      · obtain ⟨t, ht, rfl⟩ := Option.map_eq_some_iff.1 hi
        rw [Std.HashMap.getElem?_insert] at hu
        split at hu
        · cases hu
          exact .inl hv
        · exact h.vars t (Array.mem_of_getElem? ht) y u hu
      · exact h.vars s (Array.mem_of_getElem? hi) y u hu }

theorem pushScope (parent : ScopeId) :
    Code.Fits strict { c with scopes := c.scopes.push { parent := some parent } } :=
  { h with
    obeys := ⟨h.obeys.functions, h.obeys.classes⟩
    vars := fun s hs x v hv => by
      rcases Array.mem_push.1 hs with hs | rfl
      · exact h.vars s hs x v hv
      · simp at hv }

theorem pushFunction {f : Closure} (hf : f.params.all (Licence.plain strict).binds = true ∧
    stmtsObey (.plain strict) false f.body = true) :
    Code.Fits strict { c with functions := c.functions.push f } :=
  { h with obeys := h.obeys.pushFunction hf }

theorem pushClass (hk : methodsObey (.plain strict) k.methods = true)
    (hcopied : ∀ p ∈ k.properties, ∀ v, p.source = .copied v → v.Fits strict) :
    Code.Fits strict { c with classes := c.classes.push k } := by
  refine { h with obeys := h.obeys.pushClass hk, copied := fun j hj => ?_ }
  rcases Array.mem_push.1 hj with hj | rfl
  · exact h.copied j hj
  · exact hcopied

theorem setProperties (l : Loc) {ps : List PropertyRef}
    (hcopied : ∀ p ∈ ps, ∀ v, p.source = .copied v → v.Fits strict) :
    Code.Fits strict { c with classes := c.classes.modify l fun k =>
      { k with properties := ps } } := by
  refine { h with obeys := h.obeys.setProperties l ps, copied := fun j hj => ?_ }
  rcases Code.Obeys.mem_setProperties hj with hj | ⟨k, -, rfl⟩
  · exact h.copied j hj
  · exact hcopied

theorem insertValue (key : Nat × Nat) (hv : v.Fits strict) : (c.give key v).Fits strict :=
  { h with
    obeys := ⟨h.obeys.functions, h.obeys.classes⟩
    values := fun k u hu => by
      rw [Code.given?_give] at hu
      split at hu
      · cases hu
        exact hv
      · exact h.values k u hu }

end Code.Fits

/-! ## Actions -/

/-- What a function returns fits. -/
def Signal.Fits (strict : Bool) : Signal → Prop
  | .return v => v.Fits strict
  | _ => True

/-- Actions keep what cells were made from, and where data is to be plain, it stays plain. -/
def worldPolicy (strict : Bool) (own : Option Loc) : Policy Signal World where
  inv w := w.heap.Fits strict ∧ w.code.Fits strict
  rel a b := a.toSetting.Develops Cell.fixed own b.toSetting
  halts := Signal.Fits strict
  refl _ := ⟨.refl _, rfl⟩
  trans := .trans

/-- An action keeps the world in order, except for the cell `own` that is being made, and its value
has `Q`. -/
abbrev Upholds {α : Type} (strict : Bool) (own : Option Loc) (x : Action α)
    (Q : α → Prop := fun _ => True) : Prop :=
  (worldPolicy strict own).Ensures x Q

/-- An action keeps the world in order and gives a value that fits. -/
abbrev Delivers (strict : Bool) (own : Option Loc) (x : Action Value) : Prop :=
  Upholds strict own x (Value.Fits strict)

namespace Policy.Ensures

variable {α β : Type} {Q : α → Prop} {R : β → Prop}

theorem lift {r : Routine α} (h : Keeps strict r Q) :
    Upholds strict own (liftM r : Action α) Q := by
  refine h.performed (fun w hw => hw.1) (fun w s hw hfits hrel => ?_) fun e => ?_
  · exact ⟨⟨hfits, hw.2⟩, hrel.heap.coarsen Cell.fixed_shell, hrel.exchange⟩
  · cases e <;> trivial

theorem failing (f : Fault) : Upholds strict own (liftM (Action.fail f : Routine α) : Action α) Q :=
  lift (.fail f)

theorem widen {x : Action α} (h : Upholds strict none x Q) : Upholds strict own x Q :=
  h.coarsen (fun _ hw => hw) (fun _ _ _ hw hrel => ⟨hw,
    ⟨hrel.heap.grows, fun l hl _ => hrel.heap.same l hl nofun⟩, hrel.exchange⟩) fun _ => id

/-! ### The heap -/

theorem modifyFixed {f : Cell → Cell} (hfixed : ∀ c, (f c).fixed = c.fixed)
    (hfits : ∀ c, c.Fits strict → (f c).Fits strict) :
    Upholds strict own (liftM (Action.modifyCell l f) : Action Unit) :=
  ⟨fun _ hw => ⟨⟨hw.1.modify hfits, hw.2⟩, ⟨.modify hfixed, rfl⟩, trivial⟩⟩

theorem modifyDerived {f : Derived → Derived}
    (hfixed : ∀ d, (Cell.derived (f d)).fixed = (Cell.derived d).fixed)
    (hfits : ∀ d, d.Fits strict → (f d).Fits strict) :
    Upholds strict own (liftM (Action.modifyDerived l f) : Action Unit) := by
  refine modifyFixed (fun c => ?_) fun c hc => ?_
  · cases c with
    | derived d => exact hfixed d
    | _ => rfl
  · cases c with
    | derived d => exact hfits d hc
    | _ => exact hc

theorem inNewCell {c : Cell} {f : Loc → Action β} (hc : c.Fits strict)
    (hf : ∀ l, Upholds strict (some l) (f l) R) :
    Upholds strict none ((liftM (Action.alloc c) : Action Loc) >>= f) R := by
  refine ⟨fun w hw => ?_⟩
  have hends := (hf w.heap.cells.size).ends
    { w with heap := { w.heap with cells := w.heap.cells.push c } } ⟨hw.1.push hc, hw.2⟩
  exact hends.imp (fun _ hw' hrel => ⟨hw', hrel.heap.of_push, hrel.exchange⟩) fun _ => id

theorem setOwn {c : Cell} (l : Loc) (hc : c.Fits strict) :
    Upholds strict (some l) (liftM (Action.modifyHeap (·.set l c)) : Action Unit) :=
  ⟨fun _ hw => ⟨⟨hw.1.set hc, hw.2⟩, ⟨.set_own l c, rfl⟩, trivial⟩⟩

/-! ### The code -/

theorem code : Upholds strict own Action.code (Code.Fits strict) :=
  ⟨fun w hw => ⟨hw, ⟨.refl w.heap, rfl⟩, hw.2⟩⟩

theorem modifyCode {f : Code → Code} (hf : ∀ c, c.Fits strict → (f c).Fits strict) :
    Upholds strict own (Action.modifyCode f) :=
  ⟨fun w hw => ⟨⟨hw.1, hf w.code hw.2⟩, ⟨.refl w.heap, rfl⟩, trivial⟩⟩

theorem newFunction {f : Closure} (hf : f.params.all (Licence.plain strict).binds = true ∧
    stmtsObey (.plain strict) false f.body = true) : Upholds strict own (Action.newFunction f) :=
  code.seq <| (modifyCode fun _ hc => hc.pushFunction hf).give

theorem newClass (hk : methodsObey (.plain strict) k.methods = true)
    (hcopied : ∀ p ∈ k.properties, ∀ v, p.source = .copied v → v.Fits strict) :
    Upholds strict own (Action.newClass k) :=
  code.seq <| (modifyCode fun _ hc => hc.pushClass hk hcopied).give

theorem setProperties (l : Loc) {ps : List PropertyRef}
    (hcopied : ∀ p ∈ ps, ∀ v, p.source = .copied v → v.Fits strict) :
    Upholds strict own (Action.setProperties l ps) :=
  modifyCode fun _ hc => hc.setProperties l hcopied

theorem lookup (scope : ScopeId) {x : String} (hx : (Licence.plain strict).names x = true) :
    Delivers strict own (Action.lookup scope x) := by
  refine code.bind fun c hc => ?_
  split
  · next v hv => exact .pure (hc.lookup hv hx)
  · exact failing _

theorem lookup_any (scope : ScopeId) (x : String) : Upholds strict own (Action.lookup scope x) := by
  refine code.bind fun c hc => ?_
  split
  · exact .pure trivial
  · exact failing _

theorem classNamed (scope : ScopeId) (x : String) :
    Upholds strict own (Action.classNamed scope x) := by
  refine (lookup_any scope x).bind fun v _ => code.bind fun c _ => ?_
  split
  · exact .pure trivial
  · exact failing _

theorem assign (scope : ScopeId) (x : String) (hv : v.Fits strict) :
    Upholds strict own (Action.assign scope x v) :=
  modifyCode fun _ hc => hc.setVar scope x hv

theorem openScope (parent : ScopeId) : Upholds strict own (Action.openScope parent) :=
  code.seq <| (modifyCode fun _ hc => hc.pushScope parent).give

theorem bindGiven (scope : ScopeId) (xs : List String) {vs : List Value}
    (hvs : ∀ v ∈ vs, v.Fits strict) : Upholds strict own (Action.bindGiven scope xs vs) := by
  induction xs generalizing vs with
  | nil => exact .pure trivial
  | cons x xs ih =>
    cases vs with
    | nil => exact .pure trivial
    | cons v vs =>
      rw [List.forall_mem_cons] at hvs
      exact (assign scope x hvs.1).seq <| ih hvs.2

theorem bindAll (scope : ScopeId) (xs : List String) {vs : List Value}
    (hvs : ∀ v ∈ vs, v.Fits strict) : Upholds strict own (Action.bindAll scope xs vs) := by
  induction xs generalizing vs with
  | nil => exact .pure trivial
  | cons x xs ih =>
    have hhead : (vs.headD .null).Fits strict := by
      cases vs with
      | nil => exact fun _ => rfl
      | cons v vs => exact hvs v List.mem_cons_self
    exact (assign scope x hhead).seq <| ih fun v hv => hvs v (List.mem_of_mem_tail hv)

theorem giveInitial (site index : Nat) {value : Action Value}
    (h : Delivers strict own value) : Upholds strict own (Action.giveInitial site index value) := by
  have set {v : Value} (hv : v.Fits strict) :
      Upholds strict own (Action.setInitial site index v) :=
    modifyCode fun _ hc => hc.insertValue (site, index) hv
  exact code.seq <| .ite (set fun _ => rfl) (h.bind fun _ hv => set hv)

theorem giveInitials {value : Expr → Action Value} {site : Nat} {ps : List (PropertyDef Expr × Nat)}
    (h : ∀ p i, (p, i) ∈ ps → ∀ e ∈ p.value, Delivers strict own (value e)) :
    Upholds strict own (Action.giveInitials value site ps) :=
  .forM fun (p, i) hmem => .forM? fun e he => giveInitial site i (h p i hmem e he)

/-! ### Handlers and loops -/

theorem catchReturn {body : Action Unit} (h : Upholds strict own body) :
    Delivers strict own (Action.catchReturn body) := by
  refine tryCatch (h.seq <| .leaf rfl) fun s hs => ?_
  cases s with
  | «return» v => exact .pure hs
  | _ => exact .throw hs

theorem loopBody {body : Action Unit} (h : Upholds strict own body) :
    Upholds strict own (Action.loopBody body) := by
  refine tryCatch (h.give) fun s hs => ?_
  cases s with
  | «break» => exact .pure trivial
  | «continue» => exact .pure trivial
  | _ => exact .throw hs

theorem forRound {goes : Action Bool} {body step : Action Unit}
    (hgoes : Upholds strict own goes) (hbody : Upholds strict own body)
    (hstep : Upholds strict own step) : Upholds strict own (Action.forRound goes body step) :=
  hgoes.seq <| .ite ((loopBody hbody).seq <| .ite
    (hstep.give) (.pure trivial)) (.pure trivial)

theorem repeatWhile {body : Action Bool} (h : Upholds strict own body) (n : Nat) :
    Upholds strict own (Action.repeatWhile body n) := by
  induction n with
  | zero => exact .throw trivial
  | succ n ih => exact h.seq <| .ite ih (.pure trivial)

/-- Going over an array whose items fit; what is kept on the way has `Q`. -/
theorem foldItems {step : Nat → Value → α → Action (ForInStep α)} {a : α} (ha : Q a)
    (h : ∀ i v a, v.Fits strict → Q a → Upholds strict own (step i v a) fun r => Q r.value) :
    Upholds strict own (Action.foldItems l a step) Q := by
  suffices ∀ n i a, Q a → Upholds strict own (Action.foldItemsFrom l step n i a) Q from
    (lift (items l)).seq <| this _ _ _ ha
  intro n
  induction n with
  | zero => exact fun _ _ _ => .throw trivial
  | succ n ih =>
    intro i a ha
    refine (lift (items l)).bind fun xs hxs => ?_
    split
    · exact .pure ha
    · next v hv =>
      refine (h i v a (hxs v (Array.mem_of_getElem? hv)) ha).bind fun r hr => ?_
      cases r with
      | done a => exact .pure hr
      | yield a => exact ih (i + 1) a hr

theorem partitionItems {test : Value → Action Bool}
    (h : ∀ v, v.Fits strict → Upholds strict own (test v)) :
    Upholds strict own (Action.partitionItems l test) fun r =>
      (∀ v ∈ r.1, v.Fits strict) ∧ ∀ v ∈ r.2, v.Fits strict := by
  refine foldItems (by simp) fun i v acc hv hacc => (h v hv).seq <| .ite ?_ ?_
  · exact .pure ⟨Value.fits_push hacc.1 hv, hacc.2⟩
  · exact .pure ⟨hacc.1, Value.fits_push hacc.2 hv⟩

theorem findItem {test : Value → Action Bool}
    (h : ∀ v, v.Fits strict → Upholds strict own (test v)) :
    Upholds strict own (Action.findItem l test) fun r => ∀ p ∈ r, p.2.Fits strict := by
  refine foldItems nofun fun i v acc hv _ => (h v hv).seq <| .ite (.pure ?_) (.pure nofun)
  rintro _ ⟨⟩
  exact hv

end Policy.Ensures

end ScriptLang
