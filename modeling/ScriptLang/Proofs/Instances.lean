import ScriptLang.Proofs.Effects

/-!
# Properties of instances

A new instance has the non-static properties that its own class declares, at their values. What only
an ancestor declares it has not, so reading it gives a method, as reading any other name does.
-/

namespace ScriptLang

open ScriptLang.Action

/-- Whether a property is the non-static one of that name. -/
def PropertyRef.isInstance (name : String) (p : PropertyRef) : Bool :=
  !p.isStatic && p.name == name

/-- The non-static property that a class itself declares. -/
def Code.ownProperty? (s : Code) (l : Loc) (name : String) : Option PropertyRef :=
  (s.classAt l).properties.find? (PropertyRef.isInstance name)

/-! ## Declarations -/

/-- A later declaration counts, where it is of the same kind and name. -/
theorem find?_addProperty (name : String) (ps : List PropertyRef) (p : PropertyRef) :
    (addProperty ps p).find? (PropertyRef.isInstance name) =
      if p.isInstance name then some p else ps.find? (PropertyRef.isInstance name) := by
  induction ps with
  | nil => cases h : p.isInstance name <;> simp [addProperty, h]
  | cons q ps ih =>
    rw [addProperty]
    by_cases hsame : (q.isStatic == p.isStatic && q.name == p.name) = true
    · have hkind : q.isInstance name = p.isInstance name := by
        simp only [Bool.and_eq_true, beq_iff_eq] at hsame
        rw [PropertyRef.isInstance, hsame.1, hsame.2, PropertyRef.isInstance]
      rw [if_pos hsame, List.find?_cons, List.find?_cons, hkind]
      cases p.isInstance name <;> rfl
    · rw [if_neg hsame, List.find?_cons, List.find?_cons, ih]
      cases hq : q.isInstance name with
      | false => rfl
      | true =>
        have hp : p.isInstance name = false := by
          simp [PropertyRef.isInstance] at hq hsame ⊢
          grind
        simp [hp]

theorem find?_foldl_addProperty (name : String) (rs ps : List PropertyRef) :
    (rs.foldl addProperty ps).find? (PropertyRef.isInstance name) =
      (rs.reverse.find? (PropertyRef.isInstance name)).or
        (ps.find? (PropertyRef.isInstance name)) := by
  induction rs generalizing ps with
  | nil => rfl
  | cons r rs ih =>
    rw [List.foldl_cons, ih, find?_addProperty, List.reverse_cons, List.find?_append,
      Option.or_assoc]
    cases h : r.isInstance name <;> simp [h]

/-- The last declaration of a non-static property in a class definition, with its place there. -/
def ClassDef.lastDeclared (c : ClassDef Expr (List Stmt)) (name : String) :
    Option (PropertyDef Expr × Nat) :=
  c.properties.zipIdx.reverse.find? fun q => !q.1.isStatic && q.1.name == name

theorem find?_propertyRefs (c : ClassDef Expr (List Stmt)) (name : String) :
    (propertyRefs c).find? (PropertyRef.isInstance name) =
      (c.lastDeclared name).map fun q => q.1.ref c.site q.2 := by
  rw [propertyRefs, find?_foldl_addProperty, List.find?_nil, Option.or_none, ← List.map_reverse,
    List.find?_map]
  rfl

variable {w : World} {s : Code} {l : Loc} {p : PropertyRef}

variable {scope : ScopeId} {cls : Loc} {name : String}

/-- The class that a definition gives has the properties that the definition declares last. -/
theorem ownProperty?_defineClass {d : Nat} {c : ClassDef Expr (List Stmt)} {w' : World}
    (hrun : defineClass (d + 1) scope c w = .ok (.class cls) w') (name : String) :
    w'.code.ownProperty? cls name = (c.lastDeclared name).map fun q => q.1.ref c.site q.2 := by
  rw [defineClass] at hrun
  obtain ⟨parent, w₁, -, hrun⟩ := bind_eq_ok hrun
  obtain ⟨_, w₂, -, hrun⟩ := bind_eq_ok hrun
  cases hrun
  rw [← find?_propertyRefs]
  simp [Code.ownProperty?, Code.classAt, Code.setVar]

/-! ## Chains of classes -/

theorem Code.lt_of_ownProperty? (h : s.ownProperty? l name = some p) : l < s.classes.size := by
  refine Nat.lt_of_not_le fun hle => ?_
  rw [Code.ownProperty?, Code.classAt, Array.getElem?_eq_none hle] at h
  contradiction

theorem Code.property?_of_own (h : s.ownProperty? l name = some p) :
    s.property? l name = some p := by
  obtain ⟨n, hn⟩ := Nat.exists_eq_add_of_lt (Code.lt_of_ownProperty? h)
  have hfind : (s.classAt l).properties.find? (fun p => !p.isStatic && p.name == name) = some p := h
  rw [Code.property?, hn, Code.findInChain]
  simp only [hfind]

theorem Code.lt_of_property? (h : s.property? l name = some p) : l < s.classes.size := by
  refine Nat.lt_of_not_le fun hle => ?_
  have hnone : s.classAt l = { name := "", parent := none, methods := [], properties := [] } := by
    rw [Code.classAt, Array.getElem?_eq_none hle]
    rfl
  rw [Code.property?] at h
  cases hn : s.classes.size with
  | zero => simp [hn, Code.findInChain] at h
  | succ n => simp [hn, Code.findInChain, hnone] at h

/-! ## Reading a new instance -/

theorem lookup_map_eq_find? (name : String) (ps : List PropertyRef) (value : PropertyRef → Value) :
    ((ps.filter fun p => !p.isStatic).map fun p => (p.name, value p)).lookup name =
      (ps.find? (PropertyRef.isInstance name)).map value := by
  induction ps with
  | nil => rfl
  | cons p ps ih =>
    by_cases hp : p.isInstance name = true
    · obtain ⟨hstatic, hname⟩ : p.isStatic = false ∧ p.name = name := by
        simpa [PropertyRef.isInstance] using hp
      simp [hstatic, hname, hp]
    · cases hstatic : p.isStatic with
      | true => simp [hstatic, hp, ih]
      | false =>
        have hname : (name == p.name) = false :=
          beq_false_of_ne fun heq => hp (by simp [PropertyRef.isInstance, hstatic, heq])
        simp [hstatic, hp, List.lookup_cons, hname, ih]

/-- A new instance has the properties its class itself declares, at their values, and no others. -/
theorem instantiate_eq (cls : Loc) (w : World) : ∃ l w₁, instantiate cls w = .ok l w₁ ∧
    w₁.code = w.code ∧ ∀ name, (w₁.heap.instanceAt l).2.lookup name =
      (w.code.ownProperty? cls name).map w.code.propertyValue := by
  refine ⟨w.heap.cells.size, _, rfl, rfl, fun name => ?_⟩
  rw [Code.ownProperty?, ← lookup_map_eq_find?]
  simp [Heap.instanceAt]

theorem member_instance_eq (l : Loc) (name : String) (inside : Bool) (w : World) :
    member (.instance l) name inside w =
      (match (w.heap.instanceAt l).2.lookup name with
        | some v => pure v
        | none => newDerived (.method l name inside) : Action Value) w := rfl

/-- Reads a name of an instance: a property that it has, or else a method. -/
theorem member_instance (l : Loc) (name : String) (inside : Bool) (w : World) :
    (∀ v, (w.heap.instanceAt l).2.lookup name = some v →
      member (.instance l) name inside w = .ok v w) ∧
    ((w.heap.instanceAt l).2.lookup name = none →
      ∃ k w', member (.instance l) name inside w = .ok (.derived k) w' ∧
        w'.heap.derivedAt? k = some (.method l name inside)) := by
  refine ⟨fun v hv => ?_, fun hnone => ?_⟩
  · rw [member_instance_eq, hv]
    rfl
  · rw [member_instance_eq, hnone]
    refine ⟨w.heap.cells.size, _, rfl, ?_⟩
    simp [Heap.derivedAt?]

theorem classNamed_ok {x : String} (hx : w.code.lookup scope x = some (.class cls))
    (hcls : cls < w.code.classes.size) : classNamed scope x w = .ok cls w := by
  have hcode : code w = .ok w.code w := rfl
  have hclass : w.code.class? (.class cls) = some cls := if_pos hcls
  refine (bind_ok (lookup_ok hx)).trans ((bind_ok hcode).trans ?_)
  simp only [hclass]
  rfl

/-- An instance that is made without arguments and constructor is new when it is read. -/
theorem evaluate_member_new {d : Nat} {x : String} {w₁ : World}
    (hx : w.code.lookup scope x = some (.class cls)) (hlt : cls < w.code.classes.size)
    (hnew : w.code.method? false cls x 0 = none) (hinstance : instantiate cls w = .ok l w₁)
    (hcode : w₁.code = w.code) :
    evaluate (d + 3) scope (.member (.new x []) name) w = member (.instance l) name false w₁ := by
  have hcls := classNamed_ok hx hlt
  have heval : evaluate (d + 2) scope (.new x []) w = .ok (.instance l) w₁ := by
    rw [evaluate]
    refine (bind_ok hcls).trans ((bind_ok hinstance).trans ?_)
    have hargs : evaluateAll (d + 1) scope [] w₁ = .ok [] w₁ := by
      rw [evaluateAll]
      rfl
    refine (bind_ok hargs).trans ?_
    have hcode₁ : code w₁ = .ok w.code w₁ := by
      rw [← hcode]
      rfl
    refine (bind_ok hcode₁).trans ?_
    simp only [List.length_nil, hnew]
    rfl
  rw [evaluate]
  · exact bind_ok heval
  · exact nofun

/-- What reading a property gives, when its nearest declaration along the chain of classes is `p`. A
class has the properties that stand last in its definition. An instance made of it has those and
nothing that only an ancestor declares: a property that the class itself declares reads as its
value, and one that only an ancestor does reads as a method, so it is callable and not the value. -/
theorem inherited_properties_read_as_methods {w : World} {cls : Loc} {name : String}
    {p : PropertyRef} (hp : w.code.property? cls name = some p) :
    (∀ d scope c w₀, defineClass (d + 1) scope c w₀ = .ok (.class cls) w →
      w.code.ownProperty? cls name = (c.lastDeclared name).map fun q => q.1.ref c.site q.2) ∧
    (∃ l w₁, instantiate cls w = .ok l w₁ ∧ ∀ inside,
      (w.code.ownProperty? cls name = some p ∧
        member (.instance l) name inside w₁ = .ok (w.code.propertyValue p) w₁) ∨
      (w.code.ownProperty? cls name = none ∧ ∃ k w₂,
        member (.instance l) name inside w₁ = .ok (.derived k) w₂ ∧
        w₂.heap.derivedAt? k = some (.method l name inside))) ∧
    ∀ d scope x, w.code.lookup scope x = some (.class cls) → w.code.method? false cls x 0 = none →
      (w.code.ownProperty? cls name = some p ∧ ∃ w',
        evaluate (d + 3) scope (.member (.new x []) name) w = .ok (w.code.propertyValue p) w') ∨
      (w.code.ownProperty? cls name = none ∧ ∃ k w',
        evaluate (d + 3) scope (.member (.new x []) name) w = .ok (.derived k) w') := by
  obtain ⟨l, w₁, hrun, hcode, hprops⟩ := instantiate_eq cls w
  have hlt := Code.lt_of_property? hp
  have hread (inside : Bool) :
      (w.code.ownProperty? cls name = some p ∧
        member (.instance l) name inside w₁ = .ok (w.code.propertyValue p) w₁) ∨
      (w.code.ownProperty? cls name = none ∧ ∃ k w₂,
        member (.instance l) name inside w₁ = .ok (.derived k) w₂ ∧
        w₂.heap.derivedAt? k = some (.method l name inside)) := by
    obtain ⟨hhas, hhasNot⟩ := member_instance l name inside w₁
    rw [hprops name] at hhas hhasNot
    cases hown : w.code.ownProperty? cls name with
    | none =>
      rw [hown] at hhasNot
      exact .inr ⟨rfl, hhasNot rfl⟩
    | some q =>
      -- the class's own declaration is the nearest one
      rw [Code.property?_of_own hown] at hp
      rw [hown] at hhas
      cases hp
      exact .inl ⟨rfl, hhas _ rfl⟩
  refine ⟨fun d scope c w₀ hdef => ownProperty?_defineClass hdef name, ⟨l, w₁, hrun, hread⟩,
    fun d scope x hx hnew => ?_⟩
  rw [evaluate_member_new hx hlt hnew hrun hcode]
  rcases hread false with ⟨hown, hval⟩ | ⟨hown, k, w₂, hmethod, -⟩
  · exact .inl ⟨hown, w₁, hval⟩
  · exact .inr ⟨hown, k, w₂, hmethod⟩

/-- A world with a class `A`, whose property `x` is 5, and a class `B` that extends it. -/
def fiveAndHeir : World where
  code := {
    scopes :=
    #[{ vars := (({} : Std.HashMap String Value).insert "A" (.class 0)).insert "B" (.class 1) }]
    classes := #[
      { name := "A", parent := none, methods := [], properties :=
        [⟨"x", .everyone, false, .declared 1 0⟩] },
      { name := "B", parent := some 0, methods := [], properties := [] }]
    propertyValues := Std.HashMap.ofList [((1, 0), ⟨.int 5, 1⟩)]
    sites := 2 }

/-- The property is there on instances of the class that declares it. -/
theorem fiveAndHeir_own :
    fiveAndHeir.code.lookup globalScope "A" = some (.class 0) ∧
    ∃ w, evaluate 9 globalScope (.member (.new "A" []) "x") fiveAndHeir = .ok (.int 5) w := by
  have hA : fiveAndHeir.code.lookup globalScope "A" = some (.class 0) := by
    simp [Code.lookup, Code.lookupFrom, fiveAndHeir, globalScope, Std.HashMap.getElem_insert]
  have hvalue : fiveAndHeir.code.propertyValue ⟨"x", .everyone, false, .declared 1 0⟩ = .int 5 := by
    simp [Code.propertyValue, Code.given?, fiveAndHeir]
  refine ⟨hA, ?_⟩
  have hx : fiveAndHeir.code.property? 0 "x" = some ⟨"x", .everyone, false, .declared 1 0⟩ := rfl
  rcases (inherited_properties_read_as_methods hx).2.2 6 globalScope "A" hA rfl with
    ⟨-, hread⟩ | ⟨hown, -⟩
  · rw [← hvalue]
    exact hread
  · contradiction

/-- On instances of the heir it is a method, though the nearest declaration has the value 5. -/
theorem fiveAndHeir_inherited :
    (∃ p, fiveAndHeir.code.property? 1 "x" = some p ∧ fiveAndHeir.code.propertyValue p = .int 5) ∧
    ∃ k w, evaluate 9 globalScope (.member (.new "B" []) "x") fiveAndHeir = .ok (.derived k) w := by
  have hB : fiveAndHeir.code.lookup globalScope "B" = some (.class 1) := by
    simp [Code.lookup, Code.lookupFrom, fiveAndHeir, globalScope]
  refine ⟨⟨⟨"x", .everyone, false, .declared 1 0⟩, rfl, ?_⟩, ?_⟩
  · simp [Code.propertyValue, Code.given?, fiveAndHeir]
  · obtain ⟨l, w₁, hrun, hcode, hprops⟩ := instantiate_eq 1 fiveAndHeir
    rw [evaluate_member_new hB (by decide) rfl hrun hcode]
    obtain ⟨k, w₂, hread, -⟩ := (member_instance l "x" false w₁).2 (hprops "x")
    exact ⟨k, w₂, hread⟩

end ScriptLang
