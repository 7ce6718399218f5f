import ScriptLang.Proofs.Reruns

/-!
# Chains over whole runs

A run of a source loads what it includes, numbers its class definitions and evaluates its
statements. None of this gives a scope or a class that is there another parent, and new ones are
made inside what is there. So in every state that is reached the chains of scopes and of classes
lead down to a first one (`chains_lead_to_a_root`).
-/

namespace ScriptLang

open ScriptLang.Action

variable {α : Type} {lic : Licence}

/-- Whole runs: code that obeys a licence and has rooted chains stays so, and lasts. -/
def sessionPolicy (lic : Licence) : Policy Signal World where
  inv w := w.code.Obeys lic ∧ w.code.Rooted
  rel a b := Lasting lic a.code b.code
  halts _ := True
  refl w := .refl w.code
  trans := Lasting.trans

/-- An action keeps to the policy of whole runs. -/
abbrev KeepsChains (lic : Licence) (x : Action α) : Prop :=
  (sessionPolicy lic).Ensures x fun _ => True

/-- What is within bounds, with a scope to write that is there, keeps to the policy of whole
runs. -/
theorem Within.ends_rooted {own : Own} {exits : Exits} {x : Action α} (h : Within lic own exits x)
    {w : World} (hw : w.code.Obeys lic) (hown : own.In w.code) (hrooted : w.code.Rooted) :
    (sessionPolicy lic).Ends (fun _ => True) w (x w) :=
  (h.ends w hw).imp (fun _ hw' hrel => ⟨⟨hw', (hrel hw).rooted hown hrooted⟩, (hrel hw).toLasting⟩)
    fun _ _ => trivial

theorem Within.keepsChains {own : Own} {exits : Exits} {x : Action α} (h : Within lic own exits x)
    (hown : own = .nothing ∨ own = .scope globalScope) : KeepsChains lic x := by
  refine ⟨fun w hw => h.ends_rooted hw.1 ?_ hw.2⟩
  rcases hown with rfl | rfl
  · trivial
  · exact hw.2.global

theorem keepsChains_lift (r : Routine α) : KeepsChains lic (liftM r : Action α) :=
  have h : Within lic .nothing ⟨false, false⟩ (liftM r : Action α) := .lift r
  h.keepsChains (.inl rfl)

/-! ## Statements, includes and sources -/

theorem runStatement_keepsChains {s : Stmt} (hs : s.obeys lic false = true) :
    KeepsChains lic (runStatement globalScope s) := by
  have reading : KeepsChains lic Action.code := ⟨fun w hw => ⟨hw, .refl _, trivial⟩⟩
  have numbered (sites : Nat) : KeepsChains lic (modifyCode fun c => { c with sites }) :=
    ⟨fun w hw => ⟨⟨⟨hw.1.functions, hw.1.classes⟩,
      ⟨hw.2.global, hw.2.scopes, hw.2.functions, hw.2.classes⟩⟩,
      { Lasting.refl w.code with }, trivial⟩⟩
  refine reading.bind fun c _ => (numbered _).bind fun _ _ => ?_
  -- numbers change nothing that a licence asks for
  have h := (Behaves.all lic evaluationLimit).execute globalScope false _
    ((Numbering.settles_cases.all_stmt s false c.sites).2.trans hs)
  exact h.keepsChains (.inr rfl)

theorem runStatements_keepsChains {body : List Stmt} (h : stmtsObey lic false body = true) :
    KeepsChains lic (runStatements body) :=
  .foldlM trivial fun s hs _ _ => runStatement_keepsChains (stmtsObey_iff.1 h s hs)

/-- A licence that every source and every package obeys. -/
structure Licence.Common (lic : Licence) : Prop where
  parsed : ∀ source tokens p, scan source = .ok tokens → Program.parse tokens = .ok p →
    p.obeys lic = true
  packages : ∀ name p, Package.ofName? name = some p → lic.binds name = true

theorem Licence.full_common : Licence.full.Common where
  parsed _ _ p _ _ := stmtsObey_full p.statements false
  packages _ _ _ := rfl

section

variable (hlic : lic.Common)

include hlic

theorem load_obeys (source : String) :
    (sessionPolicy lic).Ensures (liftM (load source) : Action Program) fun p =>
      p.obeys lic = true := by
  refine ⟨fun w hw => ?_⟩
  unfold load
  cases hscan : scan source with
  | error e => exact ⟨hw, .refl _, trivial⟩
  | ok tokens =>
    dsimp only
    cases hparse : Program.parse tokens with
    | error e => exact ⟨hw, .refl _, trivial⟩
    | ok p => exact ⟨hw, .refl _, hlic.parsed source tokens p hscan hparse⟩

theorem includes_keepChains (d : Nat) :
    (∀ names, KeepsChains lic (loadIncludes d names)) ∧
    ∀ name, KeepsChains lic (loadInclude d name) := by
  have failing (f : Fault) : KeepsChains lic (liftM (fail f : Routine Unit)) := keepsChains_lift _
  induction d with
  | zero =>
    refine ⟨fun names => ?_, fun name => ?_⟩
    · cases names with
      | nil =>
        rw [loadIncludes]
        exact .pure trivial
      | cons =>
        rw [loadIncludes]
        · exact failing _
        · exact List.cons_ne_nil _ _
    · rw [loadInclude]
      exact failing _
  | succ d ih =>
    refine ⟨fun names => ?_, fun name => ?_⟩
    · rw [loadIncludes]
      exact .forM fun name _ => ih.2 name
    · rw [loadInclude]
      refine .ite (Policy.Ensures.get.bind fun w _ => ?_) ?_
      · dsimp only
        split
        · exact failing _
        · refine Policy.Ensures.bind (keepsChains_lift _) fun text _ => ?_
          exact (load_obeys hlic text).bind fun p hp => (ih.1 p.includes).seq
            (runStatements_keepsChains hp).discard
      · split
        · next p hp =>
          have h :
              Within lic (.scope globalScope) ⟨false, false⟩
              (assign globalScope name (.package p)) :=
            .assign globalScope (hlic.packages name p hp) _
          exact h.keepsChains (.inr rfl)
        · refine Policy.Ensures.get.bind fun w _ => .ite (.pure trivial) (failing _)

theorem runSource_keepsChains (source : String) : KeepsChains lic (runSource source) :=
  (load_obeys hlic source).bind fun p hp =>
    ((includes_keepChains hlic includeLimit).1 p.includes).seq (runStatements_keepsChains hp)

end

/-! ## The start -/

theorem World.begin_rooted (w : World) : w.begin.code.Rooted where
  global := Nat.zero_lt_one
  scopes i p hp := by
    have : w.begin.code.scopes = #[{ vars := startingVariables }] := rfl
    rw [Code.parentScope, this] at hp
    cases i <;> simp at hp
  functions := nofun
  classes l p hp := by
    rw [Code.parentClass, Code.classAt] at hp
    simp [World.begin] at hp

/-- However an action ends, chains are rooted, and what was there has the parent that it had. -/
def RootedAfter (x : Action α) (w : World) : Prop :=
  (x.final w).code.Rooted ∧
  (∀ i < w.code.scopes.size, (x.final w).code.parentScope i = w.code.parentScope i) ∧
  ∀ l < w.code.classes.size, (x.final w).code.parentClass l = w.code.parentClass l

theorem rootedAfter_of_ends {x : Action α} {w : World}
    (h : (sessionPolicy .full).Ends (fun _ => True) w (x w)) : RootedAfter x w := by
  unfold RootedAfter Action.final
  cases hrun : x w with
  | ok a w' =>
    rw [hrun] at h
    exact ⟨h.1.2, h.2.1.scopeLinks, h.2.1.classLinks⟩
  | error s w' =>
    rw [hrun] at h
    exact ⟨h.1.2, h.2.1.scopeLinks, h.2.1.classLinks⟩

/-- The chains of scopes and of classes lead to a root. They do so at the start of a session; and
whatever is run from a state where they do, a source or a part of one, they do so in the end, and
every scope and every class that was there has the parent that it had. Where they do, each scope and
each class has a chain, in which every member is older than those before, and looking for a
variable, a method or a property is looking through that chain. -/
theorem chains_lead_to_a_root :
    (∀ w : World, w.begin.code.Rooted) ∧
    (∀ w : World, w.code.Rooted →
      (∀ source, RootedAfter (runSource source) w) ∧
      (∀ d scope, scope < w.code.scopes.size →
        (∀ e, RootedAfter (evaluate d scope e) w) ∧ (∀ s, RootedAfter (execute d scope s) w) ∧
        ∀ body, RootedAfter (executeAll d scope body) w) ∧
      ∀ d, (∀ f args, RootedAfter (apply d f args) w) ∧
        (∀ self m args, RootedAfter (runMethod d self m args) w) ∧
        (∀ l name args inside, RootedAfter (callMethod d l name args inside) w) ∧
        ∀ l name args, RootedAfter (callStatic d l name args) w) ∧
    ∀ c : Code, c.Rooted →
      (∀ i, ∃ chain, Chain c.parentScope i chain ∧ chain.Pairwise (· > ·) ∧
        ∀ x, c.lookup i x = chain.findSome? (c.ownVar x)) ∧
      ∀ l, ∃ chain, Chain c.parentClass l chain ∧ chain.Pairwise (· > ·) ∧
        (∀ isStatic name count, c.method? isStatic l name count =
          chain.findSome? fun k => Code.ownMethod isStatic name count (c.classAt k)) ∧
        ∀ name, c.property? l name = chain.findSome? fun k =>
          (c.classAt k).properties.find? fun p => !p.isStatic && p.name == name := by
  refine ⟨World.begin_rooted, fun w hw => ⟨fun source => ?_, fun d scope hscope => ?_, fun d => ?_⟩,
    fun c hc => ?_⟩
  · exact rootedAfter_of_ends ((runSource_keepsChains Licence.full_common source).ends w
      ⟨w.code.obeys_full, hw⟩)
  · have h := Behaves.all .full d
    have ends {β : Type} {exits : Exits} {x : Action β}
        (hx : Within .full (.scope scope) exits x) :=
      rootedAfter_of_ends (hx.ends_rooted w.code.obeys_full hscope hw)
    exact ⟨fun e => ends (h.evaluate scope e e.obeys_full),
      fun s => ends (h.execute scope false s (s.obeys_full _)),
      fun body => ends (h.executeAll scope false body (stmtsObey_full _ _))⟩
  · have h := Behaves.all .full d
    have ends {β : Type} {exits : Exits} {x : Action β} (hx : Within .full .nothing exits x) :=
      rootedAfter_of_ends (hx.ends_rooted w.code.obeys_full trivial hw)
    exact ⟨fun f args => ends (h.apply f args), fun self m args =>
      ends (h.runMethod self m args m.obeys_full),
      fun l name args inside => ends (h.callMethod l name args inside),
      fun l name args => ends (h.callStatic l name args)⟩
  · refine ⟨fun i => ?_, fun l => ?_⟩
    · obtain ⟨chain, hchain, hdown, hlen, -⟩ := Chain.exists_of_lt hc.scopes i
      exact ⟨chain, hchain, hdown, Code.lookup_eq hchain hlen⟩
    · obtain ⟨chain, hchain, hdown, hlen, -⟩ := Chain.exists_of_lt hc.classes l
      exact ⟨chain, hchain, hdown, Code.method?_eq hchain hlen, Code.property?_eq hchain hlen⟩

theorem heirOfItself_rooted :
    let w := (oneFunction []).begin
    w.code.Rooted ∧ RootedAfter (runSource "class A {} class A extends A {}") w :=
  have h := World.begin_rooted (oneFunction [])
  ⟨h, (chains_lead_to_a_root.2.1 _ h).1 _⟩

/-- Where a scope, a part of the implementation, is made anew inside itself, it leads to no root. -/
theorem scope_inside_itself :
    let f : Expr := .name "f"
    ∃ w, Host.perform globalScope (.call (.member (.member f "closure") "__init__")
      [.member f "closure"]) (oneFunction []) = .ok .null w ∧ ¬w.code.Rooted := by
  intro f
  have hf := oneFunction_lookup []
  have hargs : [f.member "closure"].mapM (Host.resolve globalScope) (oneFunction []) =
      .ok [.handle (.scope globalScope)] (oneFunction []) :=
    Host.resolveAll_cons (Host.resolve_part hf rfl) rfl
  refine ⟨_, (Host.perform_send (.inr ⟨globalScope, rfl⟩) hf rfl hargs "__init__").trans rfl,
    fun hrooted => ?_⟩
  exact Nat.lt_irrefl _ (hrooted.scopes globalScope globalScope rfl)

/-! ## Circular includes -/

/-- The first include of the script that a name stands for. -/
def firstInclude? (w : World) (name : String) : Option String := do
  let path ← (scriptPlaces w.installDir name).find? (w.files.present w.cwd)
  let p ← (do load (← Action.readText path) : Routine Program).run' w.toSetting
  p.includes.head?

theorem load_still (source : String) : Still (load source) := by
  unfold load
  split
  · exact .fail _
  · split
    · exact .fail _
    · exact .done _

/-- A script that could be read is read in the same setting. -/
theorem script_ok {path : String} {s : Setting} {p : Program}
    (h : (do load (← Action.readText path) : Routine Program).run' s = some p) :
    ∃ source, Action.readText path s = .ok source s ∧ load source s = .ok p s := by
  unfold EStateM.run' at h
  split at h
  · next q s' hrun =>
    cases h
    obtain ⟨source, hread, hload⟩ := (readText_still path).bind_eq_ok hrun
    cases (load_still source).eq_of_ok hload
    exact ⟨source, hread, hload⟩
  · cases h

theorem loadIncludes_fails {w : World} {s : Signal} {name : String} {d : Nat}
    (h : loadInclude d name w = .error s w) (rest : List String) :
    loadIncludes (d + 1) (name :: rest) w = .error s w := by
  rw [loadIncludes]
  exact bind_error h

/-- Scripts each of which includes one of them first are not loaded, however deep includes may
nest. -/
theorem circular_includes_exceed_every_depth {w : World} {names : List String}
    (h : ∀ name ∈ names, name.toList.contains '/' = true ∧
      ∃ next ∈ names, firstInclude? w name = some next) (d : Nat) {name : String} (hname :
      name ∈ names) : loadInclude d name w = .error (.fault .tooDeep) w := by
  induction d using Nat.strongRecOn generalizing name with
  | ind d ih =>
    cases d with
    | zero =>
      rw [loadInclude]
      rfl
    | succ d =>
      obtain ⟨hslash, next, hnext, hfirst⟩ := h name hname
      rw [firstInclude?, Option.bind_eq_bind, Option.bind_eq_some_iff] at hfirst
      obtain ⟨path, hpath, hfirst⟩ := hfirst
      obtain ⟨p, hload, hhead⟩ := Option.bind_eq_some_iff.1 hfirst
      obtain ⟨rest, hincludes⟩ := List.head?_eq_some_iff.1 hhead
      have hnested : loadIncludes d p.includes w = .error (.fault .tooDeep) w := by
        rw [hincludes]
        cases d with
        | zero =>
          rw [loadIncludes]
          · rfl
          · exact List.cons_ne_nil _ _
        | succ d => exact loadIncludes_fails (ih d (by omega) hnext) rest
      rw [loadInclude, if_pos hslash]
      refine (bind_ok (show (get : Action World) w = .ok w w from rfl)).trans ?_
      simp only [hpath]
      obtain ⟨source, hread, hload⟩ := script_ok hload
      exact (bind_ok (Routine.perform_ok hread)).trans <|
        (bind_ok (Routine.perform_ok hload)).trans (bind_error hnested)

/-- A script that includes itself. -/
def selfIncluding : World where
  files :=
    { nodes := [(["lib"], .directory), (["lib", "a.zen"], .file ".include <lib/a>".toUTF8 0)] }

theorem selfIncluding_not_loaded :
    loadInclude includeLimit "lib/a" selfIncluding = .error (.fault .tooDeep) selfIncluding := by
  refine circular_includes_exceed_every_depth (fun name hname => ?_) _ (List.mem_singleton_self _)
  rw [List.mem_singleton.1 hname]
  exact ⟨rfl, _, List.mem_singleton_self _, by decide +kernel⟩

end ScriptLang
