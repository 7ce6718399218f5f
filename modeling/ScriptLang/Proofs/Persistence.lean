import Mathlib.Logic.Relation
import ScriptLang.Proofs.Instances
import ScriptLang.Proofs.PlainEvaluation

/-!
# What lasts

A program goes on by evaluating expressions, running statements and calling functions, each of which
may end in a value or early. Whatever these do, some things last: a class is as it was defined, an
instance is of its class, a method that was taken from an instance is bound to it as it was, and the
value that a class has for a property stays or becomes null.
-/

namespace ScriptLang

open ScriptLang.Action

/-! ## Steps and runs -/

/-- One step of a program, in any scope and however it ends. -/
inductive World.Step : World → World → Prop
  | evaluated (d : Nat) (scope : ScopeId) (e : Expr) (w : World) :
      Step w ((evaluate d scope e).final w)
  | executed (d : Nat) (scope : ScopeId) (s : Stmt) (w : World) :
      Step w ((execute d scope s).final w)
  | called (d : Nat) (f : Value) (args : List Value) (w : World) : Step w ((apply d f args).final w)

/-- A program can get from one world to another in some number of steps. -/
abbrev World.Leads : World → World → Prop :=
  Relation.ReflTransGen World.Step

/-- What lasts from one world to another. -/
structure World.Lasts (before after : World) : Prop where
  /-- cells are only added, and keep what they were made from -/
  cells : before.heap.Evolves Cell.fixed none after.heap
  /-- classes are only added -/
  classesGrow : before.code.classes.size ≤ after.code.classes.size
  /-- classes that were there are as they were -/
  classes : ∀ l < before.code.classes.size, after.code.classes[l]? = before.code.classes[l]?
  /-- the value of a property stays, or the property is given null -/
  values : ∀ (k : Nat × Nat) (g : Given), before.code.propertyValues[k]? = some g →
    ∃ g', after.code.propertyValues[k]? = some g' ∧ g.Since g'

namespace World.Lasts

variable {a b c w w' : World}

theorem refl (w : World) : w.Lasts w where
  cells := .refl _
  classesGrow := Nat.le_refl _
  classes _ _ := rfl
  values _ g hg := ⟨g, hg, .inl rfl⟩

theorem trans (h₁ : a.Lasts b) (h₂ : b.Lasts c) : a.Lasts c where
  cells := h₁.cells.trans h₂.cells
  classesGrow := Nat.le_trans h₁.classesGrow h₂.classesGrow
  classes l hl := by
    rw [h₂.classes l (Nat.lt_of_lt_of_le hl h₁.classesGrow), h₁.classes l hl]
  values k g hg := by
    obtain ⟨g₁, hg₁, hsince₁⟩ := h₁.values k g hg
    obtain ⟨g₂, hg₂, hsince₂⟩ := h₂.values k g₁ hg₁
    exact ⟨g₂, hg₂, hsince₁.trans hsince₂⟩

end World.Lasts

theorem World.fits_loose (w : World) : w.heap.Fits false ∧ w.code.Fits false := by
  constructor
  · exact fun c _ => c.fits_loose
  · exact ⟨w.code.obeys_full, fun _ _ _ v _ => .inl v.fits_loose, fun _ _ _ _ v _ => v.fits_loose,
      fun _ v _ => v.fits_loose⟩

/-- What the two kinds of bounds on an action say of the world in which it ends. Only a copy of a
class that is being made could change, and no step makes a part of one. -/
theorem Within.lasts {α : Type} {x : Action α} {own : Own} {exits : Exits} {Q : α → Prop}
    (h : Within .full own exits x) (hown : ∀ l, own ≠ .copy l) (hupholds : Upholds false none x Q)
    (w : World) : w.Lasts (x.final w) := by
  have effect := h.final w.code.obeys_full
  exact {
    cells := (hupholds.final w.fits_loose).2.heap
    classesGrow := effect.classesGrow
    classes := fun l hl => effect.classes l hl (hown l)
    values := effect.keeps }

theorem lasts_evaluate (d : Nat) (scope : ScopeId) (e : Expr) (w : World) :
    w.Lasts ((evaluate d scope e).final w) :=
  ((Behaves.all .full d).evaluate scope e e.obeys_full).lasts nofun
    ((Upheld.all false d).evaluate scope e e.obeys_full) w

theorem lasts_evaluateAll (d : Nat) (scope : ScopeId) (xs : List Expr) (w : World) :
    w.Lasts ((evaluateAll d scope xs).final w) := by
  have hobeys : exprsObey .full xs = true := exprsObey_iff.2 fun e _ => e.obeys_full
  exact ((Behaves.all .full d).evaluateAll scope xs hobeys).lasts nofun
    ((Upheld.all false d).evaluateAll scope xs hobeys) w

theorem World.Step.lasts {w w' : World} (h : w.Step w') : w.Lasts w' := by
  cases h with
  | evaluated d scope e => exact lasts_evaluate d scope e w
  | executed d scope s =>
    exact ((Behaves.all .full d).execute scope false s (s.obeys_full _)).lasts nofun
      ((Upheld.all false d).execute scope false s (s.obeys_full _)) w
  | called d f args =>
    exact ((Behaves.all .full d).apply f args).lasts nofun
      ((Upheld.all false d).apply f args f.fits_loose fun v _ => v.fits_loose) w

theorem World.Leads.lasts {w w' : World} (h : w.Leads w') : w.Lasts w' := by
  induction h with
  | refl => exact .refl w
  | tail _ hstep ih => exact ih.trans hstep.lasts

/-- How often the definition of its class gave a property an initial value. -/
def Code.timesGiven (c : Code) (p : PropertyRef) : Nat :=
  match p.source with
  | .declared site index => c.times (site, index)
  | .copied _ => 0

/-! ## Cells -/

/-- Functions made of others that are the same after each call. -/
def Derived.keepsNothing : Derived → Bool
  | .memoized .. | .once .. | .debounced .. | .throttled .. => false
  | _ => true

theorem Cell.eq_derived_of_fixed {c : Cell} {d : Derived} (hd : d.keepsNothing = true)
    (h : c.fixed = (Cell.derived d).fixed) : c = .derived d := by
  cases c with
  | derived e => cases e <;> cases d <;> simp_all [Cell.fixed, Derived.keepsNothing]
  | _ => cases d <;> simp_all [Cell.fixed, Derived.keepsNothing]

namespace World.Lasts

variable {w w' : World} (h : w.Lasts w')

include h

variable {l cls : Loc} {name : String}

theorem cell {c : Cell} (hc : w.heap.cells[l]? = some c) :
    ∃ c', w'.heap.cells[l]? = some c' ∧ c'.fixed = c.fixed := by
  obtain ⟨hl, -⟩ := Array.getElem?_eq_some_iff.1 hc
  have hsame := h.cells.same l hl nofun
  rw [hc, Option.map_some] at hsame
  exact Option.map_eq_some_iff.1 hsame

theorem instanceCell {className : String} {props : List (String × Value)}
    (hc : w.heap.cells[l]? = some (.instance cls className props)) :
    ∃ props', w'.heap.cells[l]? = some (.instance cls className props') := by
  obtain ⟨c', hc', hfixed⟩ := h.cell hc
  cases c' with
  | «instance» cls' className' props' =>
    cases hfixed
    exact ⟨props', hc'⟩
  | derived d => cases d <;> contradiction
  | _ => contradiction

/-- A function that was made of others, and keeps nothing of its calls, stays as it was. -/
theorem derivedCell {k : Loc} {d : Derived} (hd : d.keepsNothing = true)
    (hk : w.heap.cells[k]? = some (.derived d)) : w'.heap.cells[k]? = some (.derived d) := by
  obtain ⟨c', hc', hfixed⟩ := h.cell hk
  rw [hc', Cell.eq_derived_of_fixed hd hfixed]

/-- A method that was taken from an instance stays bound as it was. -/
theorem methodCell {k : Loc} {inside : Bool}
    (hk : w.heap.cells[k]? = some (.derived (.method l name inside))) :
    w'.heap.cells[k]? = some (.derived (.method l name inside)) :=
  h.derivedCell rfl hk

/-! ## Classes -/

theorem classAt (hl : l < w.code.classes.size) : w'.code.classAt l = w.code.classAt l := by
  rw [Code.classAt, h.classes l hl, Code.classAt]

/-- What is found along a chain of classes is found there again: the classes on the way are those
that were there, and the chain may be followed further than before. -/
theorem findInChain {α : Type} {find : ClassInfo → Option α} {n m : Nat} {x : α}
    (hempty : find ⟨"", none, [], []⟩ = none) (hfind : w.code.findInChain find n l = some x)
    (hm : n ≤ m) : w'.code.findInChain find m l = some x := by
  -- by induction on how many classes could be searched before
  induction n generalizing m l with
  | zero => contradiction
  | succ n ih =>
    obtain ⟨m, rfl⟩ := Nat.exists_eq_add_of_le' (Nat.lt_of_lt_of_le n.succ_pos hm)
    rw [Code.findInChain] at hfind ⊢
    by_cases hl : l < w.code.classes.size
    · rw [h.classAt hl]
      cases hown : find (w.code.classAt l) with
      | some y => simpa [hown] using hfind
      | none =>
        cases hparent : (w.code.classAt l).parent with
        | none => simp [hown, hparent] at hfind
        | some p =>
          simp only [hown, hparent] at hfind ⊢
          exact ih hfind (by omega)
    · -- where there was no class nothing was found
      have hnone : w.code.classAt l = ⟨"", none, [], []⟩ := by
        rw [Code.classAt, Array.getElem?_eq_none (Nat.le_of_not_lt hl), Option.getD_none]
      simp [hnone, hempty] at hfind

theorem method? {isStatic : Bool} {count : Nat} {m : MethodDef (List Stmt)}
    (hm : w.code.method? isStatic cls name count = some m) :
    w'.code.method? isStatic cls name count = some m :=
  h.findInChain rfl hm h.classesGrow

theorem ownProperty? {p : PropertyRef} (hp : w.code.ownProperty? cls name = some p) :
    w'.code.ownProperty? cls name = some p := by
  have hl : cls < w.code.classes.size := Code.lt_of_ownProperty? hp
  rwa [Code.ownProperty?, h.classAt hl]

/-- A property that had a value was given one, then and later. -/
theorem mem_of_propertyValue {p : PropertyRef} {site index : Nat}
    (hp : p.source = .declared site index) (hvalue : w.code.propertyValue p ≠ .null) :
    (site, index) ∈ w'.code.propertyValues := by
  cases hg : w.code.propertyValues[(site, index)]? with
  | none => simp [Code.propertyValue, Code.given?, hp, hg] at hvalue
  | some g =>
    obtain ⟨g', hg', -⟩ := h.values _ g hg
    rw [Std.HashMap.mem_iff_isSome_getElem?, hg']
    rfl

/-- A property has the value that it had, or it was given null since. -/
theorem propertyValue (p : PropertyRef) (hp : w.code.propertyValue p ≠ .null) :
    w'.code.propertyValue p = w.code.propertyValue p ∨
      w.code.timesGiven p < w'.code.timesGiven p ∧ w'.code.propertyValue p = .null := by
  cases hsource : p.source with
  | copied v => simp [Code.propertyValue, hsource]
  | declared site index =>
    simp only [Code.propertyValue, Code.timesGiven, Code.times, Code.given?, hsource] at hp ⊢
    cases hg : w.code.propertyValues[(site, index)]? with
    | none => simp [hg] at hp
    | some g =>
      obtain ⟨g', hg', rfl | hnull⟩ := h.values _ g hg
      · exact .inl (by rw [hg'])
      · exact .inr (by simpa [hg'] using hnull)

end World.Lasts

end ScriptLang
