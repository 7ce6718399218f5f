import ScriptLang.Proofs.Chains
import ScriptLang.Proofs.Licence
import ScriptLang.Proofs.Policies

/-!
# What actions do to the code

`Within` bounds an action from code that obeys a licence: which scope it may write, whether it may
end in a `break` or `continue`, that values of properties stay where no property has an initial
value, and that the code still obeys the licence at the end. It holds for the primitive actions and
passes through sequencing, handlers and loops. A routine has no access to the code, so it is within
any bounds.
-/

namespace ScriptLang

/-- Whether a signal ends or continues a loop. -/
def Signal.isJump : Signal → Bool
  | .break | .continue => true
  | _ => false

/-- Whether a signal ends a call with a value. -/
def Signal.isReturn : Signal → Bool
  | .return _ => true
  | _ => false

/-- What may be written of the code that is there. -/
inductive Own where
  | nothing
  | scope (id : ScopeId)
  /-- the copy of a class that is being made -/
  | copy (l : Loc)

/-- The scope that may be written is there. -/
def Own.In (c : Code) : Own → Prop
  | .scope id => id < c.scopes.size
  | _ => True

/-- What lasts of the code, whatever is run. -/
structure Lasting (lic : Licence) (before after : Code) : Prop where
  /-- scopes are only added -/
  grows : before.scopes.size ≤ after.scopes.size
  /-- classes are only added -/
  classesGrow : before.classes.size ≤ after.classes.size
  /-- functions that were there are as they were -/
  functions : ∀ (l : Loc) (f : Closure), before.functions[l]? = some f →
    after.functions[l]? = some f
  /-- scopes that were there are where they were opened -/
  scopeLinks : ∀ i < before.scopes.size, after.parentScope i = before.parentScope i
  /-- classes that were there have the parents they were made with -/
  classLinks : ∀ l < before.classes.size, after.parentClass l = before.parentClass l
  /-- scopes have the receivers they were opened with, if none is bound by its name -/
  receivers : lic.binds "this" = false →
    ∀ i < before.scopes.size, after.ownVar "this" i = before.ownVar "this" i
  /-- and only scopes for methods are opened with one -/
  opened : lic.binds "this" = false → ∀ i ≥
    before.scopes.size, ∀ v, after.ownVar "this" i = some v →
    (∃ o, v = .instance o) ∧ after.parentScope i = some globalScope

namespace Lasting

variable {lic : Licence} {a b c : Code}

theorem refl (c : Code) : Lasting lic c c where
  grows := Nat.le_refl _
  classesGrow := Nat.le_refl _
  functions _ _ hf := hf
  scopeLinks _ _ := rfl
  classLinks _ _ := rfl
  receivers _ _ _ := rfl
  opened _ i hi v hv := by simp [Code.ownVar, Array.getElem?_eq_none hi] at hv

theorem trans (h₁ : Lasting lic a b) (h₂ : Lasting lic b c) : Lasting lic a c where
  grows := Nat.le_trans h₁.grows h₂.grows
  classesGrow := Nat.le_trans h₁.classesGrow h₂.classesGrow
  functions l f hf := h₂.functions l f (h₁.functions l f hf)
  scopeLinks i hi := (h₂.scopeLinks i (Nat.lt_of_lt_of_le hi h₁.grows)).trans (h₁.scopeLinks i hi)
  classLinks l hl := (h₂.classLinks l (Nat.lt_of_lt_of_le hl h₁.classesGrow)).trans
    (h₁.classLinks l hl)
  receivers hlic i hi :=
    (h₂.receivers hlic i (Nat.lt_of_lt_of_le hi h₁.grows)).trans (h₁.receivers hlic i hi)
  opened hlic i hi v hv := by
    rcases Nat.lt_or_ge i b.scopes.size with hlt | hge
    · rw [h₂.receivers hlic i hlt] at hv
      rw [h₂.scopeLinks i hlt]
      exact h₁.opened hlic i hi v hv
    · exact h₂.opened hlic i hge v hv

end Lasting

theorem Code.given?_isSome {c : Code} {key : Nat × Nat} :
    (c.given? key).isSome = true ↔ key ∈ c.propertyValues := by
  rw [Code.given?, Option.isSome_map, Std.HashMap.mem_iff_isSome_getElem?]

theorem Code.given?_give (c : Code) (key k : Nat × Nat) (v : Value) :
    (c.give key v).given? k = if key = k then some v else c.given? k := by
  simp only [Code.given?, Code.give, Std.HashMap.getElem?_insert, beq_iff_eq]
  split <;> rfl

/-- What a property was given is the same later, or the property was given null since. -/
def Given.Since (before after : Given) : Prop :=
  after = before ∨ before.times < after.times ∧ after.value = .null

theorem Given.Since.trans {a b c : Given} (h₁ : a.Since b) (h₂ : b.Since c) : a.Since c := by
  rcases h₁ with rfl | ⟨hlt, hnull⟩
  · exact h₂
  · rcases h₂ with rfl | ⟨hlt', hnull'⟩
    · exact .inr ⟨hlt, hnull⟩
    · exact .inr ⟨Nat.lt_trans hlt hlt', hnull'⟩

/-- The change from one state of the code to another when only `own` may be written. -/
structure Effect (lic : Licence) (own : Own) (before after : Code) : Prop
    extends Lasting lic before after where
  /-- other scopes that were there are as they were -/
  frame : ∀ i < before.scopes.size, own ≠ .scope i → after.scopes[i]? = before.scopes[i]?
  /-- other classes that were there are as they were -/
  classes : ∀ l < before.classes.size, own ≠ .copy l → after.classes[l]? = before.classes[l]?
  /-- the value of a property stays, or the property is given null -/
  keeps : ∀ (k : Nat × Nat) (g : Given), before.propertyValues[k]? = some g →
    ∃ g', after.propertyValues[k]? = some g' ∧ g.Since g'
  /-- without initial values the values of properties are as they were -/
  values : lic.initials = false → after.propertyValues = before.propertyValues
  /-- class definitions get no numbers -/
  sites : after.sites = before.sites
  /-- chains that were rooted are so -/
  rooted : own.In before → before.Rooted → after.Rooted
  /-- the code still obeys the licence -/
  obeys : after.Obeys lic

namespace Effect

variable {lic : Licence} {own : Own} {a b c : Code}

theorem refl (h : c.Obeys lic) : Effect lic own c c where
  toLasting := .refl c
  frame _ _ _ := rfl
  classes _ _ _ := rfl
  keeps _ g hg := ⟨g, hg, .inl rfl⟩
  values _ := rfl
  sites := rfl
  rooted _ hc := hc
  obeys := h

theorem own_in (h : Effect lic own a b) (hown : own.In a) : own.In b := by
  cases own with
  | scope id => exact Nat.lt_of_lt_of_le hown h.grows
  | _ => trivial

theorem trans (h₁ : Effect lic own a b) (h₂ : Effect lic own b c) : Effect lic own a c where
  toLasting := h₁.toLasting.trans h₂.toLasting
  frame i hi hown := by rw [h₂.frame i (Nat.lt_of_lt_of_le hi h₁.grows) hown, h₁.frame i hi hown]
  classes l hl hown := by
    rw [h₂.classes l (Nat.lt_of_lt_of_le hl h₁.classesGrow) hown, h₁.classes l hl hown]
  keeps k g hg := by
    obtain ⟨g₁, hg₁, hsince₁⟩ := h₁.keeps k g hg
    obtain ⟨g₂, hg₂, hsince₂⟩ := h₂.keeps k g₁ hg₁
    exact ⟨g₂, hg₂, hsince₁.trans hsince₂⟩
  values hlic := by rw [h₂.values hlic, h₁.values hlic]
  sites := by rw [h₂.sites, h₁.sites]
  rooted hown ha := h₂.rooted (h₁.own_in hown) (h₁.rooted hown ha)
  obeys := h₂.obeys

theorem widen (h : Effect lic .nothing a b) : Effect lic own a b :=
  { h with
    frame := fun i hi _ => h.frame i hi nofun
    classes := fun l hl _ => h.classes l hl nofun
    rooted := fun _ => h.rooted trivial }

theorem getElem?_push {α : Type} {xs : Array α} {x : α} {i : Nat} (hi : i < xs.size) :
    (xs.push x)[i]? = xs[i]? :=
  (Array.getElem?_push_lt hi).trans (Array.getElem?_eq_getElem hi).symm

theorem rooted_pushScope {scope : Scope} (hc : c.Rooted)
    (hparent : ∀ p ∈ scope.parent, p < c.scopes.size) :
    Code.Rooted { c with scopes := c.scopes.push scope } where
  global := by simpa using Nat.lt_succ_of_lt hc.global
  scopes i p hp := by
    rw [Code.parentScope, Array.getElem?_push] at hp
    split at hp
    · next hi => exact hi ▸ hparent p hp
    · exact hc.scopes i p hp
  functions f hf := by simpa using Nat.lt_succ_of_lt (hc.functions f hf)
  classes := hc.classes

theorem of_pushScope {scope : Scope} (hparent : a.Rooted → ∀ p ∈ scope.parent, p < a.scopes.size)
    (hself : ∀ v, scope.vars["this"]? = some v → (∃ o, v = .instance o) ∧
      scope.parent = some globalScope) (h :
      Effect lic (.scope a.scopes.size) { a with scopes := a.scopes.push scope } b) :
    Effect lic .nothing a b :=
  have hlt {i : Nat} (hi : i < a.scopes.size) : i < (a.scopes.push scope).size := by
    rw [Array.size_push]
    omega
  { h with
    grows := by
      have := h.grows
      rw [Array.size_push] at this
      omega
    scopeLinks := fun i hi => by
      rw [h.scopeLinks i (hlt hi), Code.parentScope, getElem?_push hi, Code.parentScope]
    receivers := fun hlic i hi => by
      rw [h.receivers hlic i (hlt hi), Code.ownVar, getElem?_push hi, Code.ownVar]
    opened := fun hlic i hi v hv => by
      rcases Nat.lt_or_ge i (a.scopes.push scope).size with hlt | hge
      · obtain rfl : i = a.scopes.size := by
          rw [Array.size_push] at hlt
          omega
        rw [h.receivers hlic _ hlt] at hv
        rw [h.scopeLinks _ hlt]
        simp only [Code.ownVar, Code.parentScope, Array.getElem?_push_size,
          Option.bind_some] at hv ⊢
        exact hself v hv
      · exact h.opened hlic i hge v hv
    frame := fun i hi _ => by
      rw [h.frame i (hlt hi) (fun heq => by cases heq; omega)]
      exact getElem?_push hi
    classes := fun l hl _ => h.classes l hl nofun
    rooted := fun _ ha => h.rooted (by simp [Own.In]) (rooted_pushScope ha (hparent ha)) }

theorem setVar (h : c.Obeys lic) (scope : ScopeId) {x : String} (hx : lic.binds x = true)
    (v : Value) : Effect lic (.scope scope) c (c.setVar scope x v) :=
  have hlinks : (c.setVar scope x v).parentScope = c.parentScope := by
    funext i
    simp only [Code.parentScope, Code.setVar, Array.getElem?_modify]
    split <;> cases c.scopes[i]? <;> rfl
  { refl h with
    grows := by simp [Code.setVar]
    scopeLinks := fun i _ => congrFun hlinks i
    receivers := fun hlic i _ => by
      have hne : x ≠ "this" := by
        rintro rfl
        simp [hx] at hlic
      simp only [Code.ownVar, Code.setVar, Array.getElem?_modify]
      split
      · cases c.scopes[i]? <;> simp [Std.HashMap.getElem?_insert, hne]
      · rfl
    opened := fun _ i hi v hv => by
      rw [Code.ownVar, Array.getElem?_eq_none (by simpa [Code.setVar] using hi)] at hv
      cases hv
    frame := fun i _ hown => by
      have hne : scope ≠ i := fun heq => hown (by rw [heq])
      simp [Code.setVar, Array.getElem?_modify, hne]
    rooted := fun _ hc =>
      ⟨by simpa [Code.setVar] using hc.global, fun i p hp => hc.scopes i p (hlinks ▸ hp),
        by simpa [Code.setVar] using hc.functions, hc.classes⟩
    obeys := ⟨h.functions, h.classes⟩ }

theorem pushFunction (h : c.Obeys lic) {f : Closure} (hown : own = .scope f.scope)
    (hf : f.params.all lic.binds = true ∧ stmtsObey lic false f.body = true) :
    Effect lic own c { c with functions := c.functions.push f } :=
  { refl h with
    functions := fun l g hg => by
      rw [getElem?_push (Array.getElem?_eq_some_iff.1 hg).1]
      exact hg
    rooted := fun hin hc => by
      refine ⟨hc.global, hc.scopes, fun g hg => ?_, hc.classes⟩
      rcases Array.mem_push.1 hg with hg | rfl
      · exact hc.functions g hg
      · subst hown
        exact hin
    obeys := h.pushFunction hf }

variable {k : ClassInfo}

theorem parentClass_push {l : Loc} (hl : l < c.classes.size) :
    Code.parentClass { c with classes := c.classes.push k } l = c.parentClass l := by
  rw [Code.parentClass, Code.classAt, getElem?_push hl, Code.parentClass, Code.classAt]

theorem pushClass (h : c.Obeys lic) (hk : methodsObey lic k.methods = true)
    (hparent : ∀ p ∈ k.parent, p < c.classes.size) :
    Effect lic own c { c with classes := c.classes.push k } :=
  { refl h with
    classesGrow := by simp
    classLinks := fun _ => parentClass_push
    classes := fun l hl _ => getElem?_push hl
    rooted := fun _ hc => by
      refine ⟨hc.global, hc.scopes, hc.functions, fun l p hp => ?_⟩
      rw [Code.parentClass, Code.classAt, Array.getElem?_push] at hp
      split at hp
      · next hl => exact hl ▸ hparent p hp
      · exact hc.classes l p hp
    obeys := h.pushClass hk }

theorem of_pushClass (hpush : Effect lic .nothing a { a with classes := a.classes.push k })
    (h : Effect lic (.copy a.classes.size) { a with classes := a.classes.push k } b) :
    Effect lic .nothing a b :=
  { h with
    toLasting := hpush.toLasting.trans h.toLasting
    frame := fun i hi _ => h.frame i hi nofun
    classes := fun l hl _ => by
      rw [h.classes l (by rw [Array.size_push]; omega) (fun heq => by cases heq; omega)]
      exact getElem?_push hl
    rooted := fun _ ha => h.rooted trivial (hpush.rooted trivial ha) }

theorem setProperties (h : c.Obeys lic) (l : Loc) (ps : List PropertyRef) :
    Effect lic (.copy l) c { c with classes := c.classes.modify l fun k =>
      { k with properties := ps } } :=
  have hlinks (i : Loc) :
      Code.parentClass { c with classes := c.classes.modify l fun k =>
        { k with properties := ps } } i = c.parentClass i := by
    simp only [Code.parentClass, Code.classAt, Array.getElem?_modify]
    split <;> cases c.classes[i]? <;> rfl
  { refl h with
    classesGrow := by simp
    classLinks := fun i _ => hlinks i
    classes := fun i _ hown => by
      have hne : l ≠ i := fun heq => hown (by rw [heq])
      simp [Array.getElem?_modify, hne]
    rooted := fun _ hc =>
      ⟨hc.global, hc.scopes, hc.functions, fun i p hp => hc.classes i p (hlinks i ▸ hp)⟩
    obeys := h.setProperties l ps }

/-- A property that had no value, or is given null, may be given a value. -/
theorem insertValue (h : Effect lic own a b) (hlic : lic.initials = true) {key : Nat × Nat}
    {v : Value} (hkey : key ∉ a.propertyValues ∨ v = .null) : Effect lic own a (b.give key v) :=
  { h with
    keeps := fun k g hg => by
      obtain ⟨g', hg', hsince⟩ := h.keeps k g hg
      rw [Code.give, Std.HashMap.getElem?_insert]
      split
      · next heq =>
        rw [beq_iff_eq] at heq
        subst heq
        rcases hkey with hkey | rfl
        · rw [Std.HashMap.getElem?_eq_none hkey] at hg
          contradiction
        · refine ⟨_, rfl, hsince.trans (.inr ⟨?_, rfl⟩)⟩
          rw [Code.times, hg']
          exact Nat.lt_succ_self _
      · exact ⟨g', hg', hsince⟩
    values := fun hfalse => by
      rw [hlic] at hfalse
      contradiction
    rooted := fun hown ha =>
      have hb := h.rooted hown ha
      ⟨hb.global, hb.scopes, hb.functions, hb.classes⟩
    obeys := ⟨h.obeys.functions, h.obeys.classes⟩ }

end Effect

/-- Whether an action may end in a `break` or `continue`, and whether in a `return`. -/
structure Exits where
  jumps : Bool
  returns : Bool

/-- The signals that an action may end in. -/
def Exits.Allow (exits : Exits) (s : Signal) : Prop :=
  (s.isJump = true → exits.jumps = true) ∧ (s.isReturn = true → exits.returns = true)

/-- Actions, from code that obeys `lic`, write only `own` of it, and end early only as `exits`
allow. -/
def codePolicy (lic : Licence) (own : Own) (exits : Exits) : Policy Signal World where
  inv w := w.code.Obeys lic
  rel a b := a.code.Obeys lic → Effect lic own a.code b.code
  halts := exits.Allow
  refl _ := .refl
  trans h₁ h₂ ha := (h₁ ha).trans (h₂ (h₁ ha).obeys)

/-- An action is within the bounds of the policy for code. -/
abbrev Within {α : Type} (lic : Licence) (own : Own) (exits : Exits) (x : Action α) : Prop :=
  (codePolicy lic own exits).Ensures x fun _ => True

variable {α β : Type} {w : World} {a : α} {s : Setting} {scope : ScopeId} {x : String} {v : Value}

theorem Action.lookup_ok (h : w.code.lookup scope x = some v) : lookup scope x w = .ok v w := by
  have hcode : code w = .ok w.code w := rfl
  refine (bind_ok hcode).trans ?_
  simp only [h]
  rfl

theorem Action.lookup_error (h : w.code.lookup scope x = none) :
    lookup scope x w = .error (.fault (.unbound x)) w := by
  have hcode : code w = .ok w.code w := rfl
  refine (bind_ok hcode).trans ?_
  simp only [h]
  rfl

theorem Action.evaluate_name {d : Nat}
    (h : w.code.lookup scope x = some v) : evaluate (d + 1) scope (.name x) w = .ok v w := by
  rw [evaluate]
  exact lookup_ok h

theorem Action.evaluate_literal (d : Nat) (scope : ScopeId) (v : Literal) (w : World) :
    evaluate (d + 1) scope (.literal v) w = .ok (.ofLiteral v) w := by
  rw [evaluate]
  rfl

theorem Code.lt_of_class? {c : Code} {l : Loc} (h : c.class? v = some l) : l < c.classes.size := by
  unfold Code.class? at h
  split at h
  · split at h
    · next hlt => exact Option.some.inj h ▸ hlt
    · contradiction
  · contradiction

theorem Code.setVar_new (c : Code) (parent : ScopeId) (x : String) (v : Value) :
    Code.setVar { c with scopes := c.scopes.push { parent := some parent } } c.scopes.size x v =
      { c with scopes := c.scopes.push ⟨({} : Std.HashMap String Value).insert x v,
        some parent⟩ } := by
  unfold Code.setVar
  congr 1
  refine Array.ext_getElem? fun i => ?_
  rw [Array.getElem?_modify, Array.getElem?_push, Array.getElem?_push]
  split
  · next hi => rw [if_pos hi.symm, if_pos hi.symm]; rfl
  · next hi => rw [if_neg (Ne.symm hi), if_neg (Ne.symm hi)]

theorem Action.onFault_ok {x : Routine α} {f : Fault → Routine α} {s' : Setting} {a : α}
    (h : x s = .ok a s') : Action.onFault x f s = .ok a s' := by
  show EStateM.tryCatch x _ s = _
  unfold EStateM.tryCatch
  rw [h]

theorem Action.onFault_fault {x : Routine α} {f : Fault → Routine α} {s' : Setting} {e : Fault}
    (h : x s = .error (.fault e) s') : Action.onFault x f s = f e s' := by
  show EStateM.tryCatch x _ s = _
  unfold EStateM.tryCatch
  rw [h]
  rfl

theorem Routine.perform_ok {r : Routine α} (h : r w.toSetting = .ok a s) :
    (liftM r : Action α) w = .ok a { s with code := w.code } := by
  show r.perform w = _
  unfold Routine.perform
  rw [h]

theorem Routine.perform_error {r : Routine α} {h : Halt} (hr : r w.toSetting = .error h s) :
    (liftM r : Action α) w = .error h.signal { s with code := w.code } := by
  show r.perform w = _
  unfold Routine.perform
  rw [hr]

theorem Action.giveInitial_again {site index : Nat} {value : Action Value}
    (h : (site, index) ∈ w.code.propertyValues) :
    giveInitial site index value w = setInitial site index .null w := by
  show (if w.code.propertyValues.contains (site, index) then
      Pure.pure .null >>= setInitial site index
    else value >>= setInitial site index : Action Unit) w = _
  rw [if_pos (Std.HashMap.contains_iff_mem.2 h)]
  rfl

theorem Action.giveInitial_first {site index : Nat} {value : Action Value}
    (h : (site, index) ∉ w.code.propertyValues) :
    giveInitial site index value w = (value >>= setInitial site index) w := by
  show (if w.code.propertyValues.contains (site, index) then
      Pure.pure .null >>= setInitial site index
    else value >>= setInitial site index : Action Unit) w = _
  rw [if_neg (fun hgiven => h (Std.HashMap.contains_iff_mem.1 hgiven))]

namespace Within

open ScriptLang.Policy

variable {α β : Type} {lic : Licence} {own : Own} {exits : Exits} {x : Action α}

theorem mono {own' : Own} {exits' : Exits} (hx : Within lic own exits x)
    (hown : own = .nothing ∨ own = own' := by first | exact .inl rfl | exact .inr rfl)
    (hexits : ∀ s, exits.Allow s → exits'.Allow s := by exact fun _ => id) :
    Within lic own' exits' x := by
  refine hx.coarsen (fun _ hw => hw) (fun a b hw hw' hrel => ⟨hw', fun _ => ?_⟩) hexits
  rcases hown with rfl | rfl
  · exact (hrel hw).widen
  · exact hrel hw

/-! ## Primitive actions -/

/-- A routine cannot touch the code. -/
instance lift (r : Routine α) : Within lic own exits (liftM r : Action α) := by
  refine ⟨fun w hw => ?_⟩
  show Policy.Ends _ _ w (r.perform w)
  unfold Routine.perform
  cases r w.toSetting with
  | ok a s => exact ⟨hw, .refl, trivial⟩
  | error h s =>
    refine ⟨hw, .refl, ?_⟩
    cases h <;> exact ⟨nofun, nofun⟩

/-- The code that an action reads obeys the licence. -/
instance code : (codePolicy lic own exits).Ensures Action.code fun c => c.Obeys lic :=
  ⟨fun _ hw => ⟨hw, .refl, hw⟩⟩

theorem modifyCode {f : Code → Code} (hf : ∀ c, c.Obeys lic → Effect lic own c (f c)) :
    Within lic own exits (Action.modifyCode f) :=
  ⟨fun w hw => ⟨(hf w.code hw).obeys, hf w.code, trivial⟩⟩

theorem newFunction {f : Closure} (hown : own = .scope f.scope)
    (hf : f.params.all lic.binds = true ∧ stmtsObey lic false f.body = true) :
    Within lic own exits (Action.newFunction f) :=
  code.seq <| (modifyCode fun _ hc => .pushFunction hc hown hf).give

theorem newClass_since {k : ClassInfo} {w₀ : World} (hw₀ : w₀.code.Obeys lic)
    (hk : methodsObey lic k.methods = true) (hparent : ∀ p ∈ k.parent, p < w₀.code.classes.size) :
    ((codePolicy lic own exits).since w₀).Ensures (Action.newClass k) fun _ => True := by
  refine ⟨fun w ⟨hw, hsince⟩ => ?_⟩
  have hpushed : Effect lic own w.code { w.code with classes := w.code.classes.push k } :=
    .pushClass hw hk fun p hp => Nat.lt_of_lt_of_le (hparent p hp) (hsince hw₀).classesGrow
  exact ⟨⟨hpushed.obeys, fun _ => (hsince hw₀).trans hpushed⟩, fun _ => hpushed, trivial⟩

theorem setProperties (l : Loc) (ps : List PropertyRef) :
    Within lic (.copy l) exits (Action.setProperties l ps) :=
  modifyCode fun _ hc => .setProperties hc l ps

/-- What is done to a new class writes no class that was there. -/
theorem inNewClass {k : Code → ClassInfo} {f : Loc → Action β}
    (hk : ∀ c : Code, c.Obeys lic → methodsObey lic (k c).methods = true)
    (hparent : ∀ c : Code, ∀ p ∈ (k c).parent, p < c.classes.size)
    (hf : ∀ l, Within lic (.copy l) exits (f l)) :
    Within lic .nothing exits (Action.code >>= fun c => Action.newClass (k c) >>= f) := by
  refine ⟨fun w hw => ?_⟩
  have hpushed : Effect lic .nothing w.code
      { w.code with classes := w.code.classes.push (k w.code) } :=
    .pushClass hw (hk w.code hw) (hparent w.code)
  have h := (hf w.code.classes.size).ends
    { w with code := { w.code with classes := w.code.classes.push (k w.code) } } hpushed.obeys
  exact h.imp (fun _ hw' hrel => ⟨hw', fun _ => .of_pushClass hpushed (hrel hpushed.obeys)⟩)
    fun _ => id

theorem giveInitial (site index : Nat) {value : Action Value} (hlic : lic.initials = true)
    (h : Within lic own exits value) :
    Within lic own exits (Action.giveInitial site index value) := by
  refine ⟨fun w hw => ?_⟩
  by_cases hgiven : (site, index) ∈ w.code.propertyValues
  · rw [Action.giveInitial_again hgiven]
    have heffect : Effect lic own w.code (w.code.give (site, index) .null) :=
      (Effect.refl hw).insertValue hlic (.inr rfl)
    exact ⟨heffect.obeys, fun _ => heffect, trivial⟩
  · rw [Action.giveInitial_first hgiven]
    rcases h.cases hw with ⟨s, w', hrun, hrel, hs⟩ | ⟨v, w', hrun, hrel, -⟩
    · rw [bind_error hrun]
      exact ⟨(hrel hw).obeys, hrel, hs⟩
    · rw [bind_ok hrun]
      have heffect := (hrel hw).insertValue (v := v) hlic (.inl hgiven)
      exact ⟨heffect.obeys, fun _ => heffect, trivial⟩

/-! ## Scopes -/

instance lookup (scope : ScopeId) (x : String) : Within lic own exits (Action.lookup scope x) := by
  refine code.bind fun c _ => ?_
  split
  · exact .pure trivial
  · exact lift _

/-- A variable holds one of the classes that there are, or is refused. -/
theorem classNamed_cases (scope : ScopeId) (x : String) (w : World) :
    (∃ f, Action.classNamed scope x w = .error (.fault f) w) ∨
      ∃ l < w.code.classes.size, Action.classNamed scope x w = .ok l w := by
  have hcode : Action.code w = .ok w.code w := rfl
  unfold Action.classNamed
  cases hv : w.code.lookup scope x with
  | none => exact .inl ⟨_, bind_error (Action.lookup_error hv)⟩
  | some v =>
    rw [bind_ok (Action.lookup_ok hv), bind_ok hcode]
    cases hl : w.code.class? v with
    | none => exact .inl ⟨_, rfl⟩
    | some l => exact .inr ⟨l, Code.lt_of_class? hl, rfl⟩

theorem parentNamed_cases (scope : ScopeId) (x : Option String) (w : World) :
    (∃ f, x.mapM (Action.classNamed scope) w = .error (.fault f) w) ∨
      ∃ parent, (∀ p ∈ parent, p < w.code.classes.size) ∧
        x.mapM (Action.classNamed scope) w = .ok parent w := by
  cases x with
  | none => exact .inr ⟨none, nofun, rfl⟩
  | some x =>
    rw [Option.mapM_some, map_eq_pure_bind]
    rcases classNamed_cases scope x w with ⟨f, hrun⟩ | ⟨l, hl, hrun⟩
    · exact .inl ⟨f, bind_error hrun⟩
    · exact .inr ⟨some l, by simpa using hl, bind_ok hrun⟩

instance classNamed (scope : ScopeId) (x : String) :
    Within lic own exits (Action.classNamed scope x) := by
  refine (lookup scope x).seq <| code.bind fun c _ => ?_
  split
  · exact .pure trivial
  · exact lift _

theorem assign (scope : ScopeId) {x : String} (hx : lic.binds x = true) (v : Value) :
    Within lic (.scope scope) exits (Action.assign scope x v) :=
  modifyCode fun _ hc => .setVar hc scope hx v

/-- What is done in a new scope writes no scope that was there. -/
theorem inNewScope (vars : Std.HashMap String Value) {parent : ScopeId} {x : ScopeId → Action β}
    {w : World} (hw : w.code.Obeys lic) (hparent : w.code.Rooted → parent < w.code.scopes.size)
    (hself : ∀ v, vars["this"]? = some v → (∃ o, v = .instance o) ∧ parent = globalScope)
    (hx : ∀ scope, Within lic (.scope scope) exits (x scope)) :
    (codePolicy lic .nothing exits).Ends (fun _ => True) w (x w.code.scopes.size
      { w with code := { w.code with scopes := w.code.scopes.push ⟨vars, some parent⟩ } }) := by
  have h := (hx w.code.scopes.size).ends
    { w with code := { w.code with scopes := w.code.scopes.push ⟨vars, some parent⟩ } }
    ⟨hw.functions, hw.classes⟩
  refine h.imp (fun _ hw' hrel => ⟨hw', fun _ => .of_pushScope (fun hrooted p hp => ?_)
    (fun v hv => (hself v hv).imp_right (congrArg some)) (hrel ⟨hw.functions, hw.classes⟩)⟩)
    fun _ => id
  cases hp
  exact hparent hrooted

/-- A scope for a method is opened with its receiver. -/
theorem inMethodScope {self : Option Loc} {f : ScopeId → Action β}
    (hf : ∀ scope, Within lic (.scope scope) exits (f scope)) :
    Within lic .nothing exits (do
      let scope ← Action.openScope globalScope
      if let some l := self then Action.assign scope "this" (.instance l)
      f scope) := by
  refine ⟨fun w hw => ?_⟩
  cases self with
  | none => exact inNewScope {} hw Code.Rooted.global (by simp) hf
  | some l =>
    have h := inNewScope (({} : Std.HashMap String Value).insert "this" (.instance l)) hw
      Code.Rooted.global (by simp) hf
    rw [← Code.setVar_new] at h
    exact h

theorem bindGiven (scope : ScopeId) {xs : List String} (hxs : xs.all lic.binds = true)
    (vs : List Value) : Within lic (.scope scope) exits (Action.bindGiven scope xs vs) := by
  induction xs generalizing vs with
  | nil => exact .pure trivial
  | cons x xs ih =>
    rw [List.all_cons, Bool.and_eq_true] at hxs
    cases vs with
    | nil => exact .pure trivial
    | cons v vs => exact (assign scope hxs.1 v).seq <| ih hxs.2 vs

theorem bindAll (scope : ScopeId) {xs : List String} (hxs : xs.all lic.binds = true)
    (vs : List Value) : Within lic (.scope scope) exits (Action.bindAll scope xs vs) := by
  induction xs generalizing vs with
  | nil => exact .pure trivial
  | cons x xs ih =>
    rw [List.all_cons, Bool.and_eq_true] at hxs
    exact (assign scope hxs.1 _).seq <| ih hxs.2 vs.tail

/-! ## Handlers and repetitions -/

theorem handled {exits' : Exits} {handler : Signal → Action α} (hx : Within lic own exits' x)
    (hh : ∀ s, exits'.Allow s → Within lic own exits (handler s)) :
    Within lic own exits (tryCatch x handler) := by
  refine ⟨fun w hw => ?_⟩
  have h := hx.ends w hw
  show Policy.Ends _ _ w (EStateM.tryCatch x handler w)
  unfold EStateM.tryCatch
  cases hrun : x w with
  | ok a w' =>
    rw [hrun] at h
    exact h
  | error s w' =>
    rw [hrun] at h
    exact ((hh s h.2.2).ends w' h.1).after h.2.1

variable {jumps returns : Bool} {body : Action Unit} {l : Loc}

theorem catchReturn (h : Within lic own ⟨jumps, true⟩ body) :
    Within lic own ⟨jumps, returns⟩ (Action.catchReturn body) := by
  refine handled h.give fun s hs => ?_
  cases s with
  | «return» v => exact .pure trivial
  | _ => exact .throw ⟨hs.1, nofun⟩

theorem loopBody (h : Within lic own ⟨true, returns⟩ body) :
    Within lic own ⟨jumps, returns⟩ (Action.loopBody body) := by
  refine handled h.give fun s hs => ?_
  cases s with
  | «break» => exact .pure trivial
  | «continue» => exact .pure trivial
  | _ => exact .throw ⟨nofun, hs.2⟩

theorem forRound {goes : Action Bool} {step : Action Unit}
    (hgoes : Within lic own ⟨jumps, returns⟩ goes) (hbody : Within lic own ⟨true, returns⟩ body)
    (hstep : Within lic own ⟨jumps, returns⟩ step) :
    Within lic own ⟨jumps, returns⟩ (Action.forRound goes body step) :=
  hgoes.seq <| .ite ((loopBody hbody).seq <| .ite hstep.give (.pure trivial)) (.pure trivial)

theorem repeatWhile {body : Action Bool} (h : Within lic own exits body) (n : Nat) :
    Within lic own exits (Action.repeatWhile body n) := by
  induction n with
  | zero => exact .throw ⟨nofun, nofun⟩
  | succ n ih => exact h.seq <| .ite ih (.pure trivial)

theorem giveInitials {value : Expr → Action Value} {site : Nat} {ps : List (PropertyDef Expr × Nat)}
    (h : ∀ p i, (p, i) ∈ ps → ∀ e ∈ p.value, lic.initials = true ∧ Within lic own exits (value e)) :
    Within lic own exits (Action.giveInitials value site ps) := by
  refine .forM fun (p, i) hmem => .forM? fun e he => ?_
  obtain ⟨hlic, hvalue⟩ := h p i hmem e he
  exact giveInitial site i hlic hvalue

theorem foldItems {step : Nat → Value → β → Action (ForInStep β)} {b : β}
    (h : ∀ i v b, Within lic own exits (step i v b)) :
    Within lic own exits (Action.foldItems l b step) := by
  suffices ∀ n i b, Within lic own exits (Action.foldItemsFrom l step n i b) from (lift _).seq <|
      this _ _ _
  intro n
  induction n with
  | zero => exact fun _ _ => .throw ⟨nofun, nofun⟩
  | succ n ih =>
    intro i b
    refine (lift _).bind fun xs _ => ?_
    split
    · exact .pure trivial
    · refine (h i _ b).bind fun r _ => ?_
      cases r with
      | done b => exact .pure trivial
      | yield b => exact ih (i + 1) b

theorem partitionItems {test : Value → Action Bool} (h : ∀ v, Within lic own exits (test v)) :
    Within lic own exits (Action.partitionItems l test) :=
  foldItems fun _ v _ => (h v).seq <| .ite (.pure trivial) (.pure trivial)

theorem findItem {test : Value → Action Bool} (h : ∀ v, Within lic own exits (test v)) :
    Within lic own exits (Action.findItem l test) :=
  foldItems fun _ v _ => (h v).seq <| .ite (.pure trivial) (.pure trivial)

/-- By parts: a sequence by what comes first and what follows, a choice by its branches, and a
repetition by one round. -/
theorem parts (h : Within lic own exits x := by
    repeat' first
      | with_reducible infer_instance
      | with_reducible exact .pure trivial
      | with_reducible exact .any inferInstance
      | split
      | with_reducible refine .first fun _ _ => ?_
      | with_reducible refine Within.foldItems fun _ _ _ => ?_
      | with_reducible refine Within.partitionItems fun _ => ?_
      | with_reducible refine Within.findItem fun _ => ?_
      | with_reducible refine .any (.mapM (S := fun _ => True) fun _ _ => ?_)
      | with_reducible refine .foldlM trivial fun _ _ _ _ => ?_
      | with_reducible refine .bind (Q := fun _ => True) ?_ fun _ _ => ?_
      | dsimp only) : Within lic own exits x :=
  h

end Within

end ScriptLang
