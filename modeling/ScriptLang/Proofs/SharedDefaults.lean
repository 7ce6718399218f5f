import ScriptLang.Proofs.PrivateMembers
import ScriptLang.Proofs.Reruns

/-!
# Shared defaults

The initial value of a property is computed once, when its class is defined, and every instance is
given that value. Where it is an array or an object, the instances have one container in common:
what is changed in place through one of them is changed for all, and for those that are made later.
Giving the property of one instance another value is what parts it from the others.
-/

namespace ScriptLang

open ScriptLang.Action

/-! ## Changes in place -/

/-- The ways to change an array or an object in place. -/
inductive Change where
  | push (x : Value)
  | pop
  | shift
  | unshift (x : Value)
  | index (key x : Value)
  | member (name : String) (x : Value)
  | method (name : String) (args : List Value)

namespace Change

/-- Makes a change to a value. -/
def run (v : Value) : Change → Action Unit
  | push x => discard <| liftM (Library.push v x)
  | pop => discard <| liftM (Library.pop v)
  | shift => discard <| liftM (Library.shift v)
  | unshift x => discard <| liftM (Library.unshift v x)
  | index key x => assignIndex v key x
  | member name x => setMember v name x
  | method name args => discard <| liftM (v.callBound name args)

/-- Makes a change to the value that a property of an instance has. -/
def through (i : Loc) (name : String) (c : Change) : Action Unit := do
  c.run (← Action.member (.instance i) name false)

/-- The world after changes through a property of an instance, one after the other, however each
ends. -/
def allThrough (i : Loc) (name : String) (cs : List Change) (w : World) : World :=
  cs.foldl (fun w c => (c.through i name).final w) w

end Change

/-- A value that stands for an array or an object of a world. -/
inductive World.Container (w : World) : Value → Prop
  | array (l : Loc) (xs : Array Value) : w.heap.cells[l]? = some (.array xs) →
      Container w (.array l)
  | object (l : Loc) (es : Entries) : w.heap.cells[l]? = some (.object es) → Container w (.object l)

/-- What leaves the code alone, and of the heap all but the contents of arrays and objects. -/
def contentPolicy : Policy Signal World where
  inv _ := True
  rel a b := b.code = a.code ∧ a.heap.Evolves Cell.shell none b.heap
  halts _ := True
  refl _ := ⟨rfl, .refl _⟩
  trans h₁ h₂ := ⟨h₂.1.trans h₁.1, h₁.2.trans h₂.2⟩

theorem contentPolicy_lift {α : Type} {r : Routine α} {Q : α → Prop} (h : Keeps false r Q) :
    contentPolicy.Ensures (liftM r : Action α) fun _ => True := by
  have hperformed : contentPolicy.Ensures (liftM r : Action α) Q :=
    h.performed (fun w _ => w.fits_loose.1) (fun _ _ _ _ hrel => ⟨trivial, rfl, hrel.heap⟩)
    fun _ => trivial
  exact hperformed.mono fun _ _ => trivial

variable {w : World} {v : Value} {name : String}

theorem Change.run_ensures (hv : w.Container v) (c : Change) :
    contentPolicy.Ensures (c.run v) fun _ => True := by
  cases c with
  | push x => exact (contentPolicy_lift Library.push_keeps).discard
  | pop => exact (contentPolicy_lift (Library.pop_keeps v)).discard
  | shift => exact (contentPolicy_lift (Library.shift_keeps v)).discard
  | unshift x => exact (contentPolicy_lift Library.unshift_keeps).discard
  | index key x => exact contentPolicy_lift (assignIndex_keeps v key x.fits_loose)
  | member name x =>
    cases hv with
    | array l => exact contentPolicy_lift (r := fail _) (Q := fun _ => True) (.fail _)
    | object l => exact contentPolicy_lift (.modifyEntries fun _ _ => Entries.fits_loose _)
  | method name args =>
    have hkeeps := Value.callBound_keeps v.fits_loose name fun x (_ : x ∈ args) => x.fits_loose
    exact (contentPolicy_lift hkeeps).discard

/-! ## What instances hold -/

/-- An instance has a value for a property. -/
def World.Holds (w : World) (i : Loc) (name : String) (v : Value) : Prop :=
  ∃ cls className props, w.heap.cells[i]? = some (.instance cls className props) ∧
    props.lookup name = some v

theorem World.Holds.member {i : Loc} (h : w.Holds i name v) (inside : Bool) :
    member (.instance i) name inside w = .ok v w := by
  obtain ⟨cls, className, props, hi, hv⟩ := h
  exact member_property hi hv inside

theorem World.Holds.of_evolves {w' : World} (h : w.heap.Evolves Cell.shell none w'.heap) {i : Loc}
    (hi : w.Holds i name v) : w'.Holds i name v := by
  obtain ⟨cls, className, props, hi, hv⟩ := hi
  refine ⟨cls, className, props, ?_, hv⟩
  obtain ⟨hlt, -⟩ := Array.getElem?_eq_some_iff.1 hi
  have hsame := h.same i hlt nofun
  rw [hi, Option.map_some] at hsame
  obtain ⟨c, hc, hshell⟩ := Option.map_eq_some_iff.1 hsame
  cases c <;> simp_all [Cell.shell]

/-- The instances that a class makes now have a value for a property. -/
def World.Gives (w : World) (cls : Loc) (name : String) (v : Value) : Prop :=
  ∃ k w', instantiate cls w = .ok k w' ∧ w'.Holds k name v

theorem World.gives {cls : Loc} {p : PropertyRef} (hp : w.code.ownProperty? cls name = some p) :
    w.Gives cls name (w.code.propertyValue p) := by
  have hlookup := lookup_map_eq_find? name (w.code.classAt cls).properties w.code.propertyValue
  rw [Code.ownProperty?] at hp
  rw [hp, Option.map_some] at hlookup
  refine ⟨w.heap.cells.size, _, rfl, cls, (w.code.classAt cls).name, _, ?_, hlookup⟩
  simp

/-! ## Changes through a property -/

theorem Action.final_of_ok {α β : Type} {x : Action α} {f : α → Action β} {w₁ : World} {a : α}
    (h : x w = .ok a w₁) : (x >>= f).final w = (f a).final w₁ := by
  rw [Action.final, bind_ok h, Action.final]

namespace Change

variable {w w₀ : World} {i : Loc} {name : String} {v : Value}

/-- One change through a property is one to the container, which the instance still has then. -/
theorem through_final (hv : w₀.Container v) (hi : w.Holds i name v) (c : Change) :
    (c.through i name).final w = (c.run v).final w ∧
      contentPolicy.rel w ((c.run v).final w) ∧ ((c.run v).final w).Holds i name v := by
  have hrel := ((run_ensures hv c).final (w := w) trivial).2
  exact ⟨Action.final_of_ok (hi.member false), hrel, hi.of_evolves hrel.2⟩

theorem allThrough_eq (hv : w₀.Container v) (hi : w.Holds i name v) (cs : List Change) :
    allThrough i name cs w = cs.foldl (fun w c => (c.run v).final w) w ∧
      contentPolicy.rel w (allThrough i name cs w) := by
  induction cs generalizing w with
  | nil => exact ⟨rfl, contentPolicy.refl w⟩
  | cons c cs ih =>
    obtain ⟨hsame, hrel, hi'⟩ := through_final hv hi c
    obtain ⟨hrest, hrel'⟩ := ih hi'
    rw [allThrough, List.foldl_cons, hsame]
    exact ⟨hrest, contentPolicy.trans hrel hrel'⟩

theorem push_items {l : Loc} {xs : Array Value} (hl : w.heap.cells[l]? = some (.array xs))
    (x : Value) : (((push x).run (.array l)).final w).heap.items l = (w.heap.items l).push x := by
  have hcell : (((push x).run (.array l)).final w).heap.cells[l]? = some (.array (xs.push x)) := by
    rw [run, Action.final, push_ok hl]
    refine Array.getElem?_modify.trans ?_
    rw [if_pos rfl, hl, Option.map_some, Cell.mapItems]
  simp only [Heap.items, hcell, hl]

theorem member_entries {l : Loc} {es : Entries} (hl : w.heap.cells[l]? = some (.object es))
    (key : String) (x : Value) :
    (((member key x).run (.object l)).final w).heap.entries l = (w.heap.entries l).put
      (.text key) x := by
  have hcell : (((member key x).run (.object l)).final w).heap.cells[l]? =
      some (.object (es.put (.text key) x)) := by
    refine Array.getElem?_modify.trans ?_
    rw [if_pos rfl, hl, Option.map_some]
  simp only [Heap.entries, hcell, hl]

end Change

/-! ## Sharing -/

theorem World.Container.lasts {w w' : World} {v : Value} (hv : w.Container v) (h : w.Lasts w') :
    w'.Container v := by
  cases hv with
  | array l xs hl =>
    obtain ⟨c, hc, hfixed⟩ := h.cell hl
    cases c with
    | array ys => exact .array l ys hc
    | derived d => cases d <;> simp [Cell.fixed] at hfixed
    | _ => simp [Cell.fixed] at hfixed
  | object l es hl =>
    obtain ⟨c, hc, hfixed⟩ := h.cell hl
    cases c with
    | object fs => exact .object l fs hc
    | derived d => cases d <;> simp [Cell.fixed] at hfixed
    | _ => simp [Cell.fixed] at hfixed

/-- Giving the property of one instance another value changes no other instance. -/
theorem setMember_holds {w : World} {i j : Loc} {name : String} {v x : Value} (hne : i ≠ j)
    (hi : w.Holds i name v) (hj : w.Holds j name v) :
    ∃ w', setMember (.instance i) name x w = .ok () w' ∧ w'.Holds i name x ∧ w'.Holds j name v ∧
      w'.code = w.code := by
  obtain ⟨cls, className, props, hcell, -⟩ := hi
  obtain ⟨cls', className', props', hcell', hv⟩ := hj
  obtain ⟨hlt, -⟩ := Array.getElem?_eq_some_iff.1 hcell
  refine ⟨_, setMember_instance hcell x, ⟨cls, className, putField name x props, ?_, ?_⟩,
    ⟨cls', className', props', ?_, hv⟩, rfl⟩
  · exact Array.getElem?_setIfInBounds_self_of_lt hlt
  · rw [lookup_putField, if_pos rfl]
  · exact (Array.getElem?_setIfInBounds_ne hne).trans hcell'

/-- Instances share the container that is the initial value of a property, also those made at other
times. A class has the container, and gives it to every instance, unless its definition gave the
property a value again since, which is null; and that is what the definition does when it is run
again. While two instances have it, the same changes through either lead to the same world, in which
both still have it and new instances are given it as before; so each change through one is seen
through the other. Only where one is given another value do they part. -/
theorem instances_share_their_default {w w₁ : World} {cls : Loc} {name : String} {p : PropertyRef}
    {v : Value} (hp : w.code.ownProperty? cls name = some p) (hv : w.code.propertyValue p = v)
    (hcontainer : w.Container v) (hrun : w.Leads w₁) :
    (w₁.code.propertyValue p = v ∨
      w.code.timesGiven p < w₁.code.timesGiven p ∧ w₁.code.propertyValue p = .null) ∧
    (∀ d scope c i q u w₂, p.source = .declared c.site i → c.properties[i]? = some q →
      q.value.isSome → defineClass (d + 1) scope c w₁ = .ok u w₂ →
      w₂.code.propertyValue p = .null) ∧
    w₁.Gives cls name (w₁.code.propertyValue p) ∧
    ∀ i j, w₁.Holds i name v → w₁.Holds j name v →
      -- changes in place
      (∀ cs, Change.allThrough i name cs w₁ = Change.allThrough j name cs w₁ ∧
        (Change.allThrough i name cs w₁).Holds i name v ∧
        (Change.allThrough i name cs w₁).Holds j name v ∧
        (Change.allThrough i name cs w₁).Gives cls name (w₁.code.propertyValue p)) ∧
      (∀ l x, v = .array l →
        (Change.allThrough i name [.push x] w₁).heap.items l = (w₁.heap.items l).push x) ∧
      (∀ l key x, v = .object l →
        (Change.allThrough i name [.member key x] w₁).heap.entries l =
          (w₁.heap.entries l).put (.text key) x) ∧
      -- another value
      (i ≠ j → ∀ x, ∃ w₂, setMember (.instance i) name x w₁ = .ok () w₂ ∧ w₂.Holds i name x ∧
        w₂.Holds j name v ∧ w₂.Gives cls name (w₁.code.propertyValue p)) := by
  have hlasts := hrun.lasts
  have hp₁ := hlasts.ownProperty? hp
  have hcontainer₁ := hcontainer.lasts hlasts
  have gives {w₂ : World} (hcode : w₂.code = w₁.code) :
      w₂.Gives cls name (w₁.code.propertyValue p) := by
    rw [← hcode] at hp₁ ⊢
    exact w₂.gives hp₁
  have hvalue : w.code.propertyValue p ≠ .null := by
    rw [hv]
    rintro rfl
    cases hcontainer
  refine ⟨?_, fun d scope c i q u w₂ hsource hq hinitial hdef => ?_, gives rfl,
    fun i j hi hj => ⟨fun cs => ?_, fun l x hl => ?_, fun l key x hl => ?_, fun hne x => ?_⟩⟩
  · rw [← hv]
    exact hlasts.propertyValue p hvalue
  · exact Code.propertyValue_declared hsource
      (defineClass_again hdef hq hinitial (hlasts.mem_of_propertyValue hsource hvalue))
  · obtain ⟨hi', hrel⟩ := Change.allThrough_eq hcontainer₁ hi cs
    obtain ⟨hj', -⟩ := Change.allThrough_eq hcontainer₁ hj cs
    exact ⟨hi'.trans hj'.symm, hi.of_evolves hrel.2, hj.of_evolves hrel.2, gives hrel.1⟩
  · subst hl
    rw [(Change.allThrough_eq hcontainer₁ hi _).1]
    cases hcontainer₁ with
    | array _ xs hcell => exact Change.push_items hcell x
  · subst hl
    rw [(Change.allThrough_eq hcontainer₁ hi _).1]
    cases hcontainer₁ with
    | object _ es hcell => exact Change.member_entries hcell key x
  · obtain ⟨w₂, hset, hi₂, hj₂, hcode⟩ := setMember_holds hne hi hj
    exact ⟨w₂, hset, hi₂, hj₂, gives hcode⟩

/-- A world with a class whose property `items` is an empty array, and two instances of it. -/
def twoLists : World where
  heap := { cells := #[.array #[], .instance 0 "A" [("items", .array 0)],
    .instance 0 "A" [("items", .array 0)]] }
  code := {
    classes := #[{
      name := "A", parent := none, methods := []
      properties := [⟨"items", .everyone, false, .declared 1 0⟩] }]
    propertyValues := Std.HashMap.ofList [((1, 0), ⟨.array 0, 1⟩)]
    sites := 2 }

theorem twoLists_hold : twoLists.Holds 1 "items" (.array 0) ∧ twoLists.Holds 2 "items" (.array 0) :=
  ⟨⟨0, "A", _, rfl, rfl⟩, ⟨0, "A", _, rfl, rfl⟩⟩

/-- Changes through the one instance are changes through the other, and a third instance is given
what they have changed. -/
theorem twoLists_share :
    let cs : List Change := [.push (.int 7), .unshift (.int 3), .pop]
    Change.allThrough 1 "items" cs twoLists = Change.allThrough 2 "items" cs twoLists ∧
    (Change.allThrough 1 "items" cs twoLists).Gives 0 "items" (.array 0) := by
  intro cs
  have hp : twoLists.code.ownProperty? 0 "items" = some ⟨"items", .everyone, false,
      .declared 1 0⟩ := rfl
  have hv : twoLists.code.propertyValue ⟨"items", .everyone, false, .declared 1 0⟩ = .array 0 := by
    simp [Code.propertyValue, Code.given?, twoLists]
  obtain ⟨-, -, -, hshare⟩ := instances_share_their_default hp hv (.array 0 #[] rfl) .refl
  obtain ⟨hchanges, -⟩ := hshare 1 2 twoLists_hold.1 twoLists_hold.2
  obtain ⟨hsame, -, -, hgives⟩ := hchanges cs
  rw [hv] at hgives
  exact ⟨hsame, hgives⟩

/-- An item that is added through one instance is there in what the other has, which was empty. -/
theorem twoLists_see_an_item :
    let w := Change.allThrough 1 "items" [.push (.int 7)] twoLists
    twoLists.heap.items 0 = #[] ∧ w.Holds 2 "items" (.array 0) ∧ w.heap.items 0 = #[.int 7] := by
  intro w
  exact ⟨rfl, ⟨0, "A", _, rfl, rfl⟩, rfl⟩

end ScriptLang
