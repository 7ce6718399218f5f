import ScriptLang.Proofs.TreeInduction
import ScriptLang.Store

/-!
# What the bodies of functions may contain

Four things that a program text can contain decide how its runs behave. A `break` or `continue`
outside the loops of its function has nothing in that function to end or continue. The initial value
of a property is computed when its class definition first runs and kept with the definition. The
name of a variable can give access to a function that every program has, and a name that is bound
hides what it stood for. A licence says which of them are allowed. `obeys` checks a tree, down into
the functions and classes in it, so a run that starts from code and a program that obey a licence
only ever meets bodies that obey it.
-/

namespace ScriptLang

/-- What is allowed in the bodies of functions. -/
structure Licence where
  /-- `break` and `continue` outside the loops of a function -/
  jumps : Bool
  /-- initial values of properties -/
  initials : Bool
  /-- the variables that may be read -/
  names : String → Bool := fun _ => true
  /-- the variables, parameters, functions and classes that may be bound -/
  binds : String → Bool := fun _ => true

namespace Licence

/-- Everything is allowed. -/
def full : Licence := { jumps := true, initials := true }

/-- Every `break` and `continue` is inside a loop of its function. -/
def localJumps : Licence := { jumps := false, initials := true }

/-- No property has an initial value. -/
def noInitials : Licence := { jumps := true, initials := false }

/-- Only variables of certain names are read. -/
def reading (names : String → Bool) : Licence := { jumps := true, initials := true, names }

/-- Nothing is read or bound by the name of the receiver. -/
def receivers : Licence :=
  { jumps := true, initials := true, names := (· != "this"), binds := (· != "this") }

end Licence

variable (lic : Licence)

mutual

/-- Whether an expression obeys a licence. -/
def Expr.obeys : Expr → Bool
  | .literal _ | .this => true
  | .name x => lic.names x
  | .array xs => exprsObey xs
  | .object fs => fieldsObey fs
  | .function ⟨name, params, body⟩ =>
    name.all lic.binds && params.all lic.binds && stmtsObey false body
  | .call f xs => f.obeys && exprsObey xs
  | .member o _ => o.obeys
  | .index a i => a.obeys && i.obeys
  | .unary _ e => e.obeys
  | .binary _ l r => l.obeys && r.obeys
  | .assign x e => lic.binds x && e.obeys
  | .assignIndex a i e => a.obeys && i.obeys && e.obeys
  | .assignMember o _ e => o.obeys && e.obeys
  | .new _ xs => exprsObey xs

/-- Whether expressions obey a licence. -/
def exprsObey : List Expr → Bool
  | [] => true
  | e :: es => e.obeys && exprsObey es

/-- Whether the values of fields obey a licence. -/
def fieldsObey : List (String × Expr) → Bool
  | [] => true
  | (_, e) :: fs => e.obeys && fieldsObey fs

/-- Whether an expression obeys a licence, if there is one. -/
def exprObeys? : Option Expr → Bool
  | none => true
  | some e => e.obeys

/-- Whether a statement obeys a licence; `inLoop` when it stands in a loop of its function. -/
def Stmt.obeys (inLoop : Bool) : Stmt → Bool
  | .expr e => e.obeys
  | .block body => stmtsObey inLoop body
  | .cond c t e => c.obeys && stmtsObey inLoop t && branchObeys inLoop e
  | .while c body => c.obeys && stmtsObey true body
  | .doWhile body c => stmtsObey true body && c.obeys
  | .for i c s body => exprObeys? i && exprObeys? c && exprObeys? s && stmtsObey true body
  | .break | .continue => lic.jumps || inLoop
  | .return v => exprObeys? v
  | .classDef ⟨name, _, ms, ps, _⟩ => lic.binds name && methodsObey ms && propertiesObey ps

/-- Whether statements obey a licence. -/
def stmtsObey (inLoop : Bool) : List Stmt → Bool
  | [] => true
  | s :: ss => s.obeys inLoop && stmtsObey inLoop ss

/-- Whether the other branch of a conditional obeys a licence. -/
def branchObeys (inLoop : Bool) : Option (List Stmt) → Bool
  | none => true
  | some body => stmtsObey inLoop body

/-- Whether the parameters and bodies of methods obey a licence. -/
def methodsObey : List (MethodDef (List Stmt)) → Bool
  | [] => true
  | ⟨_, params, body, _, _⟩ :: ms => params.all lic.binds && stmtsObey false body && methodsObey ms

/-- Whether the initial values of properties obey a licence. -/
def propertiesObey : List (PropertyDef Expr) → Bool
  | [] => true
  | ⟨_, value, _, _⟩ :: ps =>
      (lic.initials || value.isNone) && exprObeys? value && propertiesObey ps

end

attribute [simp] Expr.obeys exprsObey fieldsObey exprObeys? Stmt.obeys stmtsObey branchObeys
  methodsObey propertiesObey

/-- Whether the statements of a program obey a licence. -/
def Program.obeys (p : Program) : Bool :=
  stmtsObey lic false p.statements

variable {lic}

/-! ## Lists obey when all their members do -/

theorem exprsObey_iff {xs : List Expr} :
    exprsObey lic xs = true ↔ ∀ x ∈ xs, x.obeys lic = true := by
  induction xs with
  | nil => simp [exprsObey]
  | cons x xs ih => rw [exprsObey, Bool.and_eq_true, ih, List.forall_mem_cons]

theorem fieldsObey_iff {fs : List (String × Expr)} :
    fieldsObey lic fs = true ↔ ∀ f ∈ fs, f.2.obeys lic = true := by
  induction fs with
  | nil => simp [fieldsObey]
  | cons f fs ih => rw [fieldsObey, Bool.and_eq_true, ih, List.forall_mem_cons]

theorem exprObeys?_iff {e : Option Expr} :
    exprObeys? lic e = true ↔ ∀ x ∈ e, x.obeys lic = true := by
  cases e <;> simp [exprObeys?]

theorem stmtsObey_iff {inLoop : Bool} {body : List Stmt} :
    stmtsObey lic inLoop body = true ↔ ∀ s ∈ body, s.obeys lic inLoop = true := by
  induction body with
  | nil => simp [stmtsObey]
  | cons s body ih => rw [stmtsObey, Bool.and_eq_true, ih, List.forall_mem_cons]

theorem branchObeys_iff {inLoop : Bool} {e : Option (List Stmt)} :
    branchObeys lic inLoop e = true ↔ ∀ body ∈ e, stmtsObey lic inLoop body = true := by
  cases e <;> simp [branchObeys]

theorem methodsObey_iff {ms : List (MethodDef (List Stmt))} :
    methodsObey lic ms = true ↔
      ∀ m ∈ ms, m.params.all lic.binds = true ∧ stmtsObey lic false m.body = true := by
  induction ms with
  | nil => simp [methodsObey]
  | cons m ms ih => rw [methodsObey, Bool.and_eq_true, Bool.and_eq_true, ih, List.forall_mem_cons]

theorem propertiesObey_iff {ps : List (PropertyDef Expr)} :
    propertiesObey lic ps = true ↔
      ∀ p ∈ ps, ∀ e ∈ p.value, lic.initials = true ∧ e.obeys lic = true := by
  induction ps with
  | nil => simp [propertiesObey]
  | cons p ps ih =>
    obtain ⟨name, value, access, isStatic⟩ := p
    rw [propertiesObey, Bool.and_eq_true, ih, List.forall_mem_cons]
    cases value <;> simp [exprObeys?]

theorem classDef_obeys_iff {c : ClassDef Expr (List Stmt)} {inLoop : Bool} :
    (Stmt.classDef c).obeys lic inLoop = true ↔ lic.binds c.name = true ∧
      methodsObey lic c.methods = true ∧ propertiesObey lic c.properties = true := by
  rw [Stmt.obeys, Bool.and_eq_true, Bool.and_eq_true, and_assoc]

theorem function_obeys_iff {f : FunctionDef (List Stmt)} :
    (Expr.function f).obeys lic = true ↔ (∀ x ∈ f.name, lic.binds x = true) ∧
      f.params.all lic.binds = true ∧ stmtsObey lic false f.body = true := by
  rw [Expr.obeys, Bool.and_eq_true, Bool.and_eq_true, and_assoc]
  cases f.name <;> simp

/-! ## Every tree obeys the full licence -/

theorem full_cases : TreeCases (fun e => e.obeys .full = true)
    (fun s => ∀ inLoop, s.obeys .full inLoop = true) where
  literal _ := rfl
  name _ := rfl
  this := rfl
  array xs ih := exprsObey_iff.2 ih
  object fs ih := fieldsObey_iff.2 ih
  function f ih := function_obeys_iff.2
    ⟨fun _ _ => rfl, List.all_eq_true.2 fun _ _ => rfl, stmtsObey_iff.2 fun s hs => ih s hs false⟩
  call f xs ihf ih := by simp [Expr.obeys, ihf, exprsObey_iff.2 ih]
  member o x ih := ih
  index a i iha ihi := by simp [Expr.obeys, iha, ihi]
  unary op e ih := ih
  binary op l r ihl ihr := by simp [Expr.obeys, ihl, ihr]
  assign x e ih := ih
  assignIndex a i e iha ihi ih := by simp [Expr.obeys, iha, ihi, ih]
  assignMember o x e iho ih := by simp [Expr.obeys, iho, ih]
  new c xs ih := exprsObey_iff.2 ih
  expr e ih _ := ih
  block body ih inLoop := stmtsObey_iff.2 fun s hs => ih s hs inLoop
  cond c t e ihc iht ih inLoop := by
    have ht : stmtsObey .full inLoop t = true := stmtsObey_iff.2 fun s hs => iht s hs inLoop
    have he : branchObeys .full inLoop e = true :=
      branchObeys_iff.2 fun body hb => stmtsObey_iff.2 fun s hs => ih body hb s hs inLoop
    simp [Stmt.obeys, ihc, ht, he]
  whileLoop c body ihc ih _ := by
    simp [Stmt.obeys, ihc, stmtsObey_iff.2 fun s hs => ih s hs true]
  doLoop body c ih ihc _ := by
    simp [Stmt.obeys, ihc, stmtsObey_iff.2 fun s hs => ih s hs true]
  forLoop i c s body ihi ihc ihs ih _ := by
    simp [Stmt.obeys, exprObeys?_iff.2 ihi, exprObeys?_iff.2 ihc, exprObeys?_iff.2 ihs,
      stmtsObey_iff.2 fun s hs => ih s hs true]
  breakOut _ := rfl
  continueOn _ := rfl
  returnBack v ih _ := exprObeys?_iff.2 ih
  classDef c ihm ihp _ := classDef_obeys_iff.2 ⟨rfl,
    methodsObey_iff.2 fun m hm =>
      ⟨List.all_eq_true.2 fun _ _ => rfl, stmtsObey_iff.2 fun s hs => ihm m hm s hs false⟩,
    propertiesObey_iff.2 fun p hp e he => ⟨rfl, ihp p hp e he⟩⟩

theorem Expr.obeys_full (e : Expr) : e.obeys .full = true :=
  full_cases.all_expr e

theorem Stmt.obeys_full (s : Stmt) (inLoop : Bool) : s.obeys .full inLoop = true :=
  full_cases.all_stmt s inLoop

theorem stmtsObey_full (body : List Stmt) (inLoop : Bool) : stmtsObey .full inLoop body = true :=
  stmtsObey_iff.2 fun s _ => s.obeys_full inLoop

theorem MethodDef.obeys_full (m : MethodDef (List Stmt)) :
    m.params.all Licence.full.binds = true ∧ stmtsObey .full false m.body = true :=
  ⟨List.all_eq_true.2 fun _ _ => rfl, stmtsObey_full m.body false⟩

/-! ## Code -/

/-- All functions and methods of the code have parameters and bodies that obey a licence. -/
structure Code.Obeys (lic : Licence) (c : Code) : Prop where
  functions : ∀ f ∈ c.functions, f.params.all lic.binds = true ∧ stmtsObey lic false f.body = true
  classes : ∀ k ∈ c.classes, methodsObey lic k.methods = true

theorem Code.obeys_full (c : Code) : c.Obeys .full where
  functions f _ := ⟨List.all_eq_true.2 fun _ _ => rfl, stmtsObey_full f.body false⟩
  classes _ _ := methodsObey_iff.2 fun m _ => m.obeys_full

namespace Code.Obeys

variable {c : Code}

variable {l : Loc} {m : MethodDef (List Stmt)}

theorem closureAt? (h : c.Obeys lic) {f : Closure} (hf : c.closureAt? l = some f) :
    f.params.all lic.binds = true ∧ stmtsObey lic false f.body = true :=
  h.functions f (Array.mem_of_getElem? hf)

theorem classAt (h : c.Obeys lic) (l : Loc) : methodsObey lic (c.classAt l).methods = true := by
  unfold Code.classAt
  cases hk : c.classes[l]? with
  | none => rfl
  | some k => exact h.classes k (Array.mem_of_getElem? hk)

theorem pushFunction (h : c.Obeys lic) {f : Closure}
    (hf : f.params.all lic.binds = true ∧ stmtsObey lic false f.body = true) :
    Code.Obeys lic { c with functions := c.functions.push f } := by
  refine ⟨fun g hg => ?_, h.classes⟩
  rcases Array.mem_push.1 hg with hg | rfl
  · exact h.functions g hg
  · exact hf

theorem pushClass (h : c.Obeys lic) {k : ClassInfo} (hk : methodsObey lic k.methods = true) :
    Code.Obeys lic { c with classes := c.classes.push k } := by
  refine ⟨h.functions, fun j hj => ?_⟩
  rcases Array.mem_push.1 hj with hj | rfl
  · exact h.classes j hj
  · exact hk

theorem mem_setProperties {ps : List PropertyRef} {j : ClassInfo}
    (hj : j ∈ c.classes.modify l fun k => { k with properties := ps }) :
    j ∈ c.classes ∨ ∃ k ∈ c.classes, j = { k with properties := ps } := by
  obtain ⟨i, hi⟩ := Array.getElem?_of_mem hj
  rw [Array.getElem?_modify] at hi
  split at hi
  · obtain ⟨k, hk, rfl⟩ := Option.map_eq_some_iff.1 hi
    exact .inr ⟨k, Array.mem_of_getElem? hk, rfl⟩
  · exact .inl (Array.mem_of_getElem? hi)

theorem setProperties (h : c.Obeys lic) (l : Loc) (ps : List PropertyRef) :
    Code.Obeys lic { c with classes := c.classes.modify l fun k =>
      { k with properties := ps } } := by
  refine ⟨h.functions, fun j hj => ?_⟩
  rcases mem_setProperties hj with hj | ⟨k, hk, rfl⟩
  · exact h.classes j hj
  · exact h.classes k hk

theorem findInChain (h : c.Obeys lic) {find : ClassInfo → Option (MethodDef (List Stmt))}
    (hfind : ∀ k m, find k = some m → m ∈ k.methods) {fuel : Nat}
    (hm : c.findInChain find fuel l = some m) :
    m.params.all lic.binds = true ∧ stmtsObey lic false m.body = true := by
  induction fuel generalizing l with
  | zero => contradiction
  | succ fuel ih =>
    rw [Code.findInChain] at hm
    split at hm
    · next m' hfound =>
      rw [← Option.some.inj hm]
      exact methodsObey_iff.1 (h.classAt l) m' (hfind _ _ hfound)
    · split at hm
      · exact ih hm
      · contradiction

theorem mem_of_ownMethod {isStatic : Bool} {name : String} {count : Nat} {k : ClassInfo}
    (hm : Code.ownMethod isStatic name count k = some m) : m ∈ k.methods := by
  unfold Code.ownMethod at hm
  dsimp only at hm
  rcases Option.or_eq_some_iff.1 hm with hm | ⟨_, hm⟩
  · exact (List.mem_filter.1 (List.mem_of_find?_eq_some hm)).1
  · exact (List.mem_filter.1 (List.mem_of_head? hm)).1

theorem method? (h : c.Obeys lic) {isStatic : Bool} {name : String} {count : Nat}
    (hm : c.method? isStatic l name count = some m) :
    m.params.all lic.binds = true ∧ stmtsObey lic false m.body = true :=
  h.findInChain (fun _ _ => mem_of_ownMethod) hm

end Code.Obeys

end ScriptLang
