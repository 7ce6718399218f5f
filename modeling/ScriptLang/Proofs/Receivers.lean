import ScriptLang.Proofs.DataModel
import ScriptLang.Proofs.ParsedTrees
import ScriptLang.Proofs.SessionRuns

/-!
# Receivers

A method or constructor is run in a new scope in which `this` is bound to the instance it is called
on. The word is reserved, so a program cannot bind it otherwise. A function sees the receiver of the
scope it was written in, since that scope is around those of all its calls.
-/

namespace ScriptLang

open ScriptLang.Action

variable {α : Type} {a b c : Code} {w : World} {d : Nat}

namespace Code

/-- Scopes up to one decide what is seen from it. -/
theorem lookup_congr (ha : a.Rooted) {i : ScopeId} {x : String}
    (hlinks : ∀ j ≤ i, b.parentScope j = a.parentScope j)
    (hown : ∀ j ≤ i, b.ownVar x j = a.ownVar x j) : b.lookup i x = a.lookup i x := by
  obtain ⟨ps, hchain, -, hlen, hle⟩ := Chain.exists_of_lt ha.scopes i
  rw [lookup_eq (hchain.congr fun j hj => hlinks j (hle j hj)) hlen, lookup_eq hchain hlen]
  clear hchain hlen
  induction ps with
  | nil => rfl
  | cons j ps ih =>
    rw [List.forall_mem_cons] at hle
    rw [List.findSome?_cons, List.findSome?_cons, hown j hle.1, ih hle.2]

/-- The code with one scope more. -/
def pushScope (c : Code) (vars : Std.HashMap String Value) (parent : ScopeId) : Code :=
  { c with scopes := c.scopes.push ⟨vars, some parent⟩ }

/-- A new scope sees its own variables and what the scope around it sees. -/
theorem lookup_pushScope (hc : c.Rooted) (vars : Std.HashMap String Value) {parent : ScopeId}
    (hparent : parent < c.scopes.size) (x : String) :
    (c.pushScope vars parent).lookup c.scopes.size x = vars[x]?.or (c.lookup parent x) := by
  have hrooted : (c.pushScope vars parent).Rooted :=
    Effect.rooted_pushScope hc fun p hp => by cases hp; exact hparent
  have hsame (j : ScopeId) (hj : j ≤ parent) : (c.pushScope vars parent).scopes[j]? =
      c.scopes[j]? :=
    Effect.getElem?_push (Nat.lt_of_le_of_lt hj hparent)
  obtain ⟨ps, hchain, -, hlen, -⟩ := Chain.exists_of_lt hrooted.scopes parent
  have hseen : (c.pushScope vars parent).lookup parent x = c.lookup parent x :=
    lookup_congr hc (fun j hj => by rw [parentScope, hsame j hj, parentScope])
      fun j hj => by rw [ownVar, hsame j hj, ownVar]
  have hnew : (c.pushScope vars parent).scopes[c.scopes.size]? = some ⟨vars, some parent⟩ :=
    Array.getElem?_push_size
  rw [← hseen, lookup_eq hchain hlen, lookup, lookupFrom]
  simp only [hnew]
  cases vars[x]? with
  | some v => rfl
  | none => exact lookupFrom_eq hchain (Nat.le_trans hlen hparent) x

/-- Code in which no receiver is seen outside of methods. -/
structure Guarded (c : Code) : Prop where
  obeys : c.Obeys .receivers
  rooted : c.Rooted
  outside : c.lookup globalScope "this" = none

/-- From `before` to `after` functions, links and own receivers last, and every scope that was there
sees the receiver that it saw. -/
structure Leads (before after : Code) : Prop where
  guarded : after.Guarded
  lasts : Lasting .receivers before after
  seen : ∀ i < before.scopes.size, after.lookup i "this" = before.lookup i "this"

theorem lookup_this_of_lasting (ha : a.Rooted) (h : Lasting .receivers a b) {i : ScopeId}
    (hi : i < a.scopes.size) : b.lookup i "this" = a.lookup i "this" :=
  lookup_congr ha (fun j hj => h.scopeLinks j (Nat.lt_of_le_of_lt hj hi))
    fun j hj => h.receivers rfl j (Nat.lt_of_le_of_lt hj hi)

theorem Guarded.leads (ha : a.Guarded) (hobeys : b.Obeys .receivers) (hrooted : b.Rooted)
    (h : Lasting .receivers a b) : a.Leads b where
  guarded :=
    ⟨hobeys, hrooted, (lookup_this_of_lasting ha.rooted h ha.rooted.global).trans ha.outside⟩
  lasts := h
  seen _ hi := lookup_this_of_lasting ha.rooted h hi

end Code

/-! ## Whatever is run -/

/-- However an action ends, receivers are as they were. -/
def KeepsReceivers (x : Action α) (w : World) : Prop :=
  w.code.Leads (x.final w).code

theorem keepsReceivers_of_ends (hw : w.code.Guarded) {x : Action α}
    (h : (sessionPolicy .receivers).Ends (fun _ => True) w (x w)) : KeepsReceivers x w := by
  unfold KeepsReceivers Action.final
  cases hrun : x w with
  | ok a w' =>
    rw [hrun] at h
    exact hw.leads h.1.1 h.1.2 h.2.1
  | error s w' =>
    rw [hrun] at h
    exact hw.leads h.1.1 h.1.2 h.2.1

theorem Package.ne_this {name : String} {p : Package} (h : Package.ofName? name = some p) :
    Licence.receivers.binds name = true := by
  have hname := List.find?_some h
  rw [beq_iff_eq] at hname
  rw [← hname]
  cases p <;> decide

theorem Licence.receivers_common : Licence.receivers.Common where
  parsed _ _ _ := Parser.obeys_receivers_of_parse
  packages _ _ := Package.ne_this

theorem World.begin_guarded (w : World) : w.begin.code.Guarded where
  obeys := ⟨nofun, nofun⟩
  rooted := w.begin_rooted
  outside := by
    have hnone : startingVariables["this"]? = none := by
      rw [Option.eq_none_iff_forall_not_mem]
      intro v hv
      obtain ⟨f, hf, hname, -⟩ := startingVariables_eq hv
      have hnames : ∀ f ∈ CoreFn.all, f.name ≠ "this" := by decide +kernel
      exact hnames f hf hname
    have hscopes : w.begin.code.scopes = #[{ vars := startingVariables }] := rfl
    simp [Code.lookup, Code.lookupFrom, hscopes, globalScope, hnone]

/-! ## Bodies of methods and functions -/

/-- An action runs a body in a scope that sees the receiver `self`. -/
def RunsWith (x : Action Value) (w : World) (d : Nat) (body : List Stmt) (self : Option Value) :
    Prop :=
  ∃ scope w₁, x w = catchReturn (executeAll d scope body) w₁ ∧ w.code.Leads w₁.code ∧
    scope < w₁.code.scopes.size ∧ w₁.code.lookup scope "this" = self

/-- A body that is run in a new scope, after its parameters are bound. -/
theorem runsWith_of_scope (hw : w.code.Guarded) (vars : Std.HashMap String Value) {parent : ScopeId}
    (hparent : parent < w.code.scopes.size)
    (hself : ∀ v, vars["this"]? = some v → (∃ o, v = .instance o) ∧ parent = globalScope)
    {self : Option Value} (hseen : vars["this"]?.or (w.code.lookup parent "this") = self)
    {x : Action Value} {body : List Stmt} {binding : Action Unit}
    (hwithin : Within .receivers (.scope w.code.scopes.size) ⟨false, false⟩ binding)
    (hok : ∀ w, ∃ w₁, binding w = .ok () w₁)
    (hx : x w = (binding >>= fun _ => catchReturn (executeAll d w.code.scopes.size body))
      { w with code := w.code.pushScope vars parent }) : RunsWith x w d body self := by
  obtain ⟨w₁, hw₁⟩ := hok { w with code := w.code.pushScope vars parent }
  have hopened : (w.code.pushScope vars parent).Obeys .receivers :=
    ⟨hw.obeys.functions, hw.obeys.classes⟩
  have hrooted : (w.code.pushScope vars parent).Rooted :=
    Effect.rooted_pushScope hw.rooted fun p hp => by cases hp; exact hparent
  have heffect : Effect .receivers (.scope w.code.scopes.size) (w.code.pushScope vars parent)
      w₁.code := by
    have h := hwithin.ends { w with code := w.code.pushScope vars parent } hopened
    rw [hw₁] at h
    exact h.2.1 hopened
  have hwhole : Effect .receivers .nothing w.code w₁.code :=
    .of_pushScope (fun _ p hp => by cases hp; exact hparent)
      (fun v hv => (hself v hv).imp_right (congrArg some)) heffect
  have hsize : w.code.scopes.size < (w.code.pushScope vars parent).scopes.size := by
    simp [Code.pushScope]
  refine ⟨w.code.scopes.size, w₁, hx.trans (bind_ok hw₁),
    hw.leads hwhole.obeys (hwhole.rooted trivial hw.rooted) hwhole.toLasting,
    Nat.lt_of_lt_of_le hsize heffect.grows, ?_⟩
  rw [Code.lookup_this_of_lasting hrooted heffect.toLasting hsize,
    Code.lookup_pushScope hw.rooted vars hparent, hseen]

theorem runMethod_runsWith (hw : w.code.Guarded) (self : Option Loc) {m : MethodDef (List Stmt)}
    (hm : m.params.all Licence.receivers.binds = true) (args : List Value) :
    RunsWith (runMethod (d + 1) self m args) w d m.body (self.map .instance) := by
  have hbind : Within .receivers (.scope w.code.scopes.size) ⟨false, false⟩
      (bindAll w.code.scopes.size m.params args) := .bindAll _ hm args
  have hok := bindAll_ok w.code.scopes.size m.params args
  cases self with
  | none =>
    refine runsWith_of_scope hw {} hw.rooted.global (by simp) (by simp [hw.outside]) hbind hok ?_
    rw [runMethod]
    rfl
  | some l =>
    refine runsWith_of_scope hw (({} : Std.HashMap String Value).insert "this" (.instance l))
      hw.rooted.global (by simp) (by simp) hbind hok ?_
    rw [runMethod, Code.pushScope, ← Code.setVar_new]
    rfl

theorem apply_runsWith (hw : w.code.Guarded) {l : Loc} {c : Closure}
    (hc : w.code.closureAt? l = some c) (args : List Value) :
    RunsWith (apply (d + 1) (.function l) args) w d c.body (w.code.lookup c.scope "this") := by
  refine runsWith_of_scope hw {} (hw.rooted.functions c (Array.mem_of_getElem? hc))
    (by simp) (by simp)
    (Within.bindGiven _ (hw.obeys.closureAt? hc).1 args) (bindGiven_ok _ c.params args) ?_
  rw [apply_function hc]
  rfl

/-- A function is made with the scope that it is written in. -/
theorem evaluate_function (scope : ScopeId) (f : FunctionDef (List Stmt)) : ∃ l w₁,
    evaluate (d + 1) scope (.function f) w = .ok (.function l) w₁ ∧
      w₁.code.closureAt? l = some ⟨f.name, f.params, f.body, scope⟩ := by
  obtain ⟨name, params, body⟩ := f
  rw [evaluate]
  cases name with
  | none => exact ⟨_, _, rfl, Array.getElem?_push_size⟩
  | some x => exact ⟨_, _, rfl, Array.getElem?_push_size⟩

/-- Whenever a function is called, its body is run in a scope that sees what the scope of the
function saw at any time before. -/
theorem apply_later_runsWith (hw : w.code.Guarded) {w₁ : World} (h : w.code.Leads w₁.code) {l : Loc}
    {c : Closure} (hc : w.code.closureAt? l = some c) (args : List Value) :
    RunsWith (apply (d + 1) (.function l) args) w₁ d c.body (w.code.lookup c.scope "this") := by
  have hscope := hw.rooted.functions c (Array.mem_of_getElem? hc)
  rw [← h.seen c.scope hscope]
  exact apply_runsWith h.guarded (h.lasts.functions l c hc) args

/-- `this` is the receiver, for ever. A program that is parsed binds nothing to that word, and at
the start of a session it is not bound. Whatever is run, scopes that are there see the receiver that
they saw, and only scopes for methods are opened with one of their own. The body of a method or
constructor is run in a scope that sees the instance, and that of a static method in one that sees
none. A function is made with the scope that it is written in, and whenever it is called later, its
body is run in a scope that sees the receiver that was seen there. `this` reads as the receiver, and
is refused as an unknown name where none is seen. -/
theorem this_is_the_receiver :
    (∀ source tokens p, scan source = .ok tokens → Program.parse tokens = .ok p →
      p.obeys .receivers = true) ∧
    (∀ w : World, w.begin.code.Guarded) ∧
    ∀ w : World, w.code.Guarded →
      (∀ source, KeepsReceivers (runSource source) w) ∧
      (∀ d scope, scope < w.code.scopes.size →
        (∀ e, e.obeys .receivers = true → KeepsReceivers (evaluate d scope e) w) ∧
        (∀ s, s.obeys .receivers false = true → KeepsReceivers (execute d scope s) w) ∧
        (∀ body, stmtsObey .receivers false body = true →
          KeepsReceivers (executeAll d scope body) w) ∧
        (evaluate (d + 1) scope .this w =
          match w.code.lookup scope "this" with
          | some v => .ok v w
          | none => .error (.fault (.unbound "this")) w) ∧
        ∀ f, ∃ l w₁, evaluate (d + 1) scope (.function f) w = .ok (.function l) w₁ ∧
          w₁.code.closureAt? l = some ⟨f.name, f.params, f.body, scope⟩) ∧
      ∀ d args,
        (∀ f, KeepsReceivers (apply d f args) w) ∧
        (∀ self m, m.params.all Licence.receivers.binds = true →
          stmtsObey .receivers false m.body = true →
          KeepsReceivers (runMethod d self m args) w ∧
          RunsWith (runMethod (d + 1) self m args) w d m.body (self.map .instance)) ∧
        ∀ l c, w.code.closureAt? l = some c → ∀ w₁ : World, w.code.Leads w₁.code →
          RunsWith (apply (d + 1) (.function l) args) w₁ d c.body
            (w.code.lookup c.scope "this") := by
  refine ⟨fun _ _ _ => Parser.obeys_receivers_of_parse, World.begin_guarded, fun w hw =>
    ⟨fun source => ?_, fun d scope hscope => ?_, fun d args => ?_⟩⟩
  · exact keepsReceivers_of_ends hw
      ((runSource_keepsChains Licence.receivers_common source).ends w ⟨hw.obeys, hw.rooted⟩)
  · have h := Behaves.all .receivers d
    have keeps {β : Type} {exits : Exits} {x : Action β}
        (hx : Within .receivers (.scope scope) exits x) :=
      keepsReceivers_of_ends hw (hx.ends_rooted hw.obeys hscope hw.rooted)
    refine ⟨fun e he => keeps (h.evaluate scope e he), fun s hs =>
      keeps (h.execute scope false s hs),
      fun body hbody => keeps (h.executeAll scope false body hbody), ?_, evaluate_function scope⟩
    rw [evaluate]
    cases hself : w.code.lookup scope "this" with
    | some v => exact lookup_ok hself
    | none => exact lookup_error hself
  · have h := Behaves.all .receivers d
    have keeps {β : Type} {exits : Exits} {x : Action β}
        (hx : Within .receivers .nothing exits x) :=
      keepsReceivers_of_ends hw (hx.ends_rooted hw.obeys trivial hw.rooted)
    exact ⟨fun f => keeps (h.apply f args),
      fun self m hparams hbody => ⟨keeps (h.runMethod self m args ⟨hparams, hbody⟩),
        runMethod_runsWith hw self hparams args⟩,
      fun l c hc w₁ h₁ => apply_later_runsWith hw h₁ hc args⟩

/-- The world in which a method with a function in its body is run on an instance. -/
theorem method_of_instance_sees_it :
    let w := (oneFunction []).begin
    w.code.Guarded ∧
    RunsWith (runMethod 3 (some 7) ⟨"m", ["x"], [.return (some .this)], .everyone, false⟩ []) w 2
      [.return (some .this)] (some (.instance 7)) :=
  have h := World.begin_guarded (oneFunction [])
  ⟨h, (((this_is_the_receiver.2.2 _ h).2.2 2 []).2.1 (some 7) _ (by decide) (by decide)).2⟩

/-- Where a scope, a part of the implementation, is told to set `this`, it is bound outside of every
method. -/
theorem this_bound_by_hand :
    let f : Expr := .name "f"
    ∃ w, Host.perform globalScope (.call (.member (.member f "closure") "set")
      [.literal (.text "this"), .literal (.whole 5)]) (oneFunction []) = .ok .null w ∧
      w.code.lookup globalScope "this" = some (.int 5) := by
  have hargs : [.literal (.text "this"), .literal (.whole 5)].mapM (Host.resolve globalScope)
      (oneFunction []) = .ok [.text "this", .int 5] (oneFunction []) :=
    Host.resolveAll_cons (evaluate_literal 959 _ _ _)
    (Host.resolveAll_cons (evaluate_literal 959 _ _ _) rfl)
  refine ⟨_, (Host.perform_send (.inr ⟨_, rfl⟩) (oneFunction_lookup []) rfl hargs "set").trans rfl,
    ?_⟩
  simp [Code.lookup, Code.lookupFrom, Code.setVar, oneFunction, globalScope]

end ScriptLang
