import ScriptLang.Proofs.Evaluation
import ScriptLang.Session

/-!
# Running program text again

What a run leaves behind in the program text is the values of properties: a class definition
computes its initial values when it first runs and finds them given when it runs again. A program
without initial values leaves nothing, so it runs the second time as it did the first. A definition
with initial values gives null for each of them from its second run on, also to the classes that it
gave before.
-/

namespace ScriptLang

open ScriptLang.Action

/-! ## Programs with numbers -/

namespace Numbering

variable {lic : Licence} {α β γ : Type}

/-- Numbering something changes nothing and takes no number. -/
def Settled (number : α → Numbering α) (a : α) : Prop :=
  ∀ n : Nat, number a n = (a, n)

/-- What numbering gives is settled and obeys a licence as before. -/
def Settles (number : α → Numbering α) (obeys : α → Bool) (a : α) : Prop :=
  ∀ n : Nat, Settled number (number a n).1 ∧ obeys (number a n).1 = obeys a

variable {a : α}

variable {number : α → Numbering α} {obeys : α → Bool}

theorem Settles.one {whole : β → Numbering β} {obeys' : β → Bool} (make : α → β)
    (h : Settles number obeys a) (hnumber : ∀ a, whole (make a) = make <$> number a)
    (hobeys : ∀ a, obeys' (make a) = obeys a) : Settles whole obeys' (make a) := by
  intro n
  obtain ⟨settled, same⟩ := h n
  have hmade : (whole (make a) n).1 = make (number a n).1 := by rw [hnumber]; rfl
  rw [hmade]
  refine ⟨fun m => ?_, by rw [hobeys, hobeys, same]⟩
  rw [hnumber]
  show (make (number (number a n).1 m).1, (number (number a n).1 m).2) = _
  rw [settled m]

/-- A tree with two parts that are numbered. -/
theorem Settles.two {number₁ : α → Numbering α} {number₂ : γ → Numbering γ} {obeys₁ : α → Bool}
    {obeys₂ : γ → Bool} {whole : β → Numbering β} {obeys' : β → Bool} (make : α → γ → β) {c : γ}
    (h₁ : Settles number₁ obeys₁ a) (h₂ : Settles number₂ obeys₂ c)
    (hnumber : ∀ a c, whole (make a c) = (do return make (← number₁ a) (← number₂ c)))
    (hobeys : ∀ a c, obeys' (make a c) = (obeys₁ a && obeys₂ c)) :
    Settles whole obeys' (make a c) := by
  intro n
  obtain ⟨settled₁, same₁⟩ := h₁ n
  obtain ⟨settled₂, same₂⟩ := h₂ (number₁ a n).2
  have hmade : (whole (make a c) n).1 = make (number₁ a n).1 (number₂ c (number₁ a n).2).1 := by
    rw [hnumber]; rfl
  rw [hmade]
  refine ⟨fun m => ?_, by rw [hobeys, hobeys, same₁, same₂]⟩
  rw [hnumber]
  show (make (number₁ (number₁ a n).1 m).1 (number₂ _ (number₁ (number₁ a n).1 m).2).1,
    (number₂ _ (number₁ (number₁ a n).1 m).2).2) = _
  rw [settled₁ m, settled₂ m]

theorem Settles.and (h : Settles number obeys a) (b : Bool) :
    Settles number (fun a => b && obeys a) a :=
  fun n => ⟨(h n).1, congrArg (b && ·) (h n).2⟩

theorem exprs_settle {xs : List Expr} (h : ∀ x ∈ xs, Settles expr (Expr.obeys lic) x) :
    Settles exprs (exprsObey lic) xs := by
  induction xs with
  | nil => exact fun n => ⟨fun _ => rfl, rfl⟩
  | cons x xs ih =>
    rw [List.forall_mem_cons] at h
    exact h.1.two (· :: ·) (ih h.2) (fun _ _ => by rw [exprs]) fun _ _ => by rw [exprsObey]

theorem fields_settle {fs : List (String × Expr)}
    (h : ∀ f ∈ fs, Settles expr (Expr.obeys lic) f.2) : Settles fields (fieldsObey lic) fs := by
  induction fs with
  | nil => exact fun n => ⟨fun _ => rfl, rfl⟩
  | cons f fs ih =>
    obtain ⟨x, e⟩ := f
    rw [List.forall_mem_cons] at h
    exact h.1.two (fun e fs => (x, e) :: fs) (ih h.2) (fun _ _ => by rw [fields])
      fun _ _ => by rw [fieldsObey]

/-- Numbers a pair. -/
def both (number₁ : α → Numbering α) (number₂ : γ → Numbering γ) (p : α × γ) : Numbering (α × γ) :=
  return (← number₁ p.1, ← number₂ p.2)

theorem Settles.both {number₁ : α → Numbering α} {number₂ : γ → Numbering γ} {obeys₁ : α → Bool}
    {obeys₂ : γ → Bool} {c : γ} (h₁ : Settles number₁ obeys₁ a) (h₂ : Settles number₂ obeys₂ c) :
    Settles (both number₁ number₂) (fun p => obeys₁ p.1 && obeys₂ p.2) (a, c) :=
  h₁.two Prod.mk h₂ (fun _ _ => rfl) fun _ _ => rfl

theorem expr?_settles {e : Option Expr} (h : ∀ x ∈ e, Settles expr (Expr.obeys lic) x) :
    Settles expr? (exprObeys? lic) e := by
  cases e with
  | none => exact fun n => ⟨fun _ => rfl, rfl⟩
  | some e => exact (h e rfl).one some (fun _ => by rw [expr?]; rfl) fun _ => by rw [exprObeys?]

theorem stmts_settle {inLoop : Bool} {body : List Stmt}
    (h : ∀ s ∈ body, Settles stmt (Stmt.obeys lic inLoop) s) :
    Settles stmts (stmtsObey lic inLoop) body := by
  induction body with
  | nil => exact fun n => ⟨fun _ => rfl, rfl⟩
  | cons s body ih =>
    rw [List.forall_mem_cons] at h
    exact h.1.two (· :: ·) (ih h.2) (fun _ _ => by rw [stmts]) fun _ _ => by rw [stmtsObey]

theorem methods_settle {ms : List (MethodDef (List Stmt))}
    (h : ∀ m ∈ ms, ∀ s ∈ m.body, Settles stmt (Stmt.obeys lic false) s) :
    Settles methods (methodsObey lic) ms := by
  induction ms with
  | nil => exact fun n => ⟨fun _ => rfl, rfl⟩
  | cons m ms ih =>
    obtain ⟨name, params, body, access, isStatic⟩ := m
    rw [List.forall_mem_cons] at h
    refine ((stmts_settle h.1).and (params.all lic.binds)).two (fun body ms =>
      ⟨name, params, body, access, isStatic⟩ :: ms) (ih h.2) (fun _ _ => ?_) fun _ _ => ?_
    · rw [methods]
    · rw [methodsObey]

theorem properties_settle {ps : List (PropertyDef Expr)}
    (h : ∀ p ∈ ps, ∀ e ∈ p.value, Settles expr (Expr.obeys lic) e) :
    Settles properties (propertiesObey lic) ps := by
  induction ps with
  | nil => exact fun n => ⟨fun _ => rfl, rfl⟩
  | cons p ps ih =>
    obtain ⟨name, value, access, isStatic⟩ := p
    rw [List.forall_mem_cons] at h
    have hvalue : Settles expr? (fun v => (lic.initials || v.isNone) && exprObeys? lic v)
        value := by
      cases value with
      | none => exact fun n => ⟨fun _ => rfl, rfl⟩
      | some e => exact (expr?_settles h.1).and (lic.initials || false)
    refine hvalue.two (fun value ps => ⟨name, value, access, isStatic⟩ :: ps) (ih h.2)
      (fun _ _ => ?_) fun _ _ => ?_
    · rw [properties]
    · rw [propertiesObey]

theorem leaf (h : number a = pure a) : Settles number obeys a := by
  intro n
  rw [h]
  exact ⟨fun m => by rw [show (pure a : Numbering α) n = (a, n) from rfl, h]; rfl, rfl⟩

theorem settles_cases : TreeCases (Settles expr (Expr.obeys lic))
    (fun s => ∀ inLoop, Settles stmt (Stmt.obeys lic inLoop) s) where
  literal _ := leaf (by rw [expr])
  name _ := leaf (by rw [expr])
  this := leaf (by rw [expr])
  array xs ih := (exprs_settle ih).one Expr.array (fun _ => by rw [expr]; rfl) fun _ => by
    rw [Expr.obeys]
  object fs ih := (fields_settle ih).one Expr.object (fun _ => by rw [expr]; rfl) fun _ => by
    rw [Expr.obeys]
  function f ih :=
    ((stmts_settle fun s hs => ih s hs false).and _).one
      (fun body => Expr.function ⟨f.name, f.params, body⟩)
      (fun _ => by rw [expr]; rfl) fun _ => by rw [Expr.obeys]
  call f xs ihf ih :=
    ihf.two Expr.call (exprs_settle ih) (fun _ _ => by rw [expr]) fun _ _ => by rw [Expr.obeys]
  member o x ih := ih.one (Expr.member · x) (fun _ => by rw [expr]; rfl) fun _ => by rw [Expr.obeys]
  index a i iha ihi := iha.two Expr.index ihi (fun _ _ => by rw [expr]) fun _ _ => by
    rw [Expr.obeys]
  unary op e ih := ih.one (Expr.unary op) (fun _ => by rw [expr]; rfl) fun _ => by rw [Expr.obeys]
  binary op l r ihl ihr :=
    ihl.two (Expr.binary op) ihr (fun _ _ => by rw [expr]) fun _ _ => by rw [Expr.obeys]
  assign x e ih := (ih.and _).one (Expr.assign x) (fun _ => by rw [expr]; rfl) fun _ => by
    rw [Expr.obeys]
  assignIndex a i e iha ihi ih :=
    (iha.both ihi).two (fun p e => Expr.assignIndex p.1 p.2 e) ih (fun _ _ => by rw [expr]; rfl)
      fun _ _ => by rw [Expr.obeys]
  assignMember o x e iho ih :=
    iho.two (Expr.assignMember · x ·) ih (fun _ _ => by rw [expr]) fun _ _ => by rw [Expr.obeys]
  new c xs ih := (exprs_settle ih).one (Expr.new c) (fun _ => by rw [expr]; rfl) fun _ => by
    rw [Expr.obeys]
  expr e ih _ := ih.one Stmt.expr (fun _ => by rw [stmt]; rfl) fun _ => by rw [Stmt.obeys]
  block body ih inLoop :=
    (stmts_settle fun s hs => ih s hs inLoop).one Stmt.block (fun _ => by rw [stmt]; rfl)
      fun _ => by rw [Stmt.obeys]
  cond c t e ihc iht ih inLoop := by
    have first := ihc.both (stmts_settle fun s hs => iht s hs inLoop)
    cases e with
    | none =>
      refine first.one (fun p => Stmt.cond p.1 p.2 none) (fun _ => ?_) fun _ => ?_
      · rw [stmt]
        rfl
      · rw [Stmt.obeys, branchObeys, Bool.and_true]
    | some body =>
      refine first.two (fun p body => Stmt.cond p.1 p.2 (some body))
        (stmts_settle fun s hs => ih body rfl s hs inLoop) (fun _ _ => ?_) fun _ _ => ?_
      · rw [stmt]
        rfl
      · rw [Stmt.obeys, branchObeys]
  whileLoop c body ihc ih _ :=
    ihc.two Stmt.while (stmts_settle fun s hs => ih s hs true) (fun _ _ => by rw [stmt])
      fun _ _ => by rw [Stmt.obeys]
  doLoop body c ih ihc _ :=
    (stmts_settle fun s hs => ih s hs true).two Stmt.doWhile ihc (fun _ _ => by rw [stmt])
      fun _ _ => by rw [Stmt.obeys]
  forLoop i c s body ihi ihc ihs ih _ :=
    (((expr?_settles ihi).both (expr?_settles ihc)).both (expr?_settles ihs)).two
      (fun p body => Stmt.for p.1.1 p.1.2 p.2 body) (stmts_settle fun s hs => ih s hs true)
      (fun _ _ => by rw [stmt]; rfl) fun _ _ => by rw [Stmt.obeys]
  breakOut _ := leaf (by rw [stmt])
  continueOn _ := leaf (by rw [stmt])
  returnBack v ih _ :=
    (expr?_settles ih).one Stmt.return (fun _ => by rw [stmt]; rfl) fun _ => by rw [Stmt.obeys]
  classDef c ihm ihp inLoop := by
    obtain ⟨name, parent, ms, ps, site⟩ := c
    have parts :=
      ((methods_settle fun m hm s hs => ihm m hm s hs false).and (lic.binds name)).both
      (properties_settle ihp)
    -- a definition that has a number keeps it, whatever is in it
    have kept (k : Nat) (hk : k ≠ 0) :
        Settles stmt (Stmt.obeys lic inLoop) (.classDef ⟨name, parent, ms, ps, k⟩) := by
      refine parts.one (fun r => Stmt.classDef ⟨name, parent, r.1, r.2, k⟩) (fun _ => ?_)
        fun _ => ?_
      · rw [stmt, if_neg hk]
        rfl
      · rw [Stmt.obeys]
    by_cases hsite : site = 0
    · intro n
      have hnext : stmt (.classDef ⟨name, parent, ms, ps, site⟩) n =
          stmt (.classDef ⟨name, parent, ms, ps, n + 1⟩) (n + 1) := by
        rw [stmt, if_pos hsite, stmt, if_neg (Nat.succ_ne_zero n)]
        rfl
      rw [hnext]
      exact kept (n + 1) (Nat.succ_ne_zero n) (n + 1)
    · exact kept site hsite

end Numbering

variable {lic : Licence} {own : Own} {site : Nat}

/-- Statements that were numbered are settled, and obey a licence that they did before. -/
theorem Numbering.stmts_settled {inLoop : Bool} {body : List Stmt}
    (h : stmtsObey lic inLoop body = true) (n : Nat) :
    ∀ s ∈ (stmts body n).1, Settled stmt s ∧ s.obeys lic inLoop = true := by
  induction body generalizing n with
  | nil =>
    rw [stmts]
    exact fun s hs => absurd hs List.not_mem_nil
  | cons s body ih =>
    rw [stmtsObey, Bool.and_eq_true] at h
    obtain ⟨settled, same⟩ := settles_cases.all_stmt s inLoop n
    rw [show (stmts (s :: body) n).1 = (stmt s n).1 ::
      (stmts body (stmt s n).2).1 by rw [stmts]; rfl]
    exact List.forall_mem_cons.2 ⟨⟨settled, same.trans h.1⟩, ih h.2 _⟩

/-- A program all of whose class definitions have numbers, given from `base` on. It can be run more
than once, since its definitions keep their numbers. -/
def Program.numbered (p : Program) (base : Nat) : Program :=
  { p with statements := (Numbering.stmts p.statements base).1 }

/-! ## Runs of programs -/

theorem runStatement_settled {s : Stmt} (h : Numbering.Settled Numbering.stmt s) (scope : ScopeId) :
    runStatement scope s = execute evaluationLimit scope s := by
  unfold runStatement
  generalize execute evaluationLimit scope = run
  funext w
  have hcode : code w = .ok w.code w := rfl
  have hnumber : (Numbering.stmt s).run w.code.sites = (s, w.code.sites) := h _
  refine (bind_ok hcode).trans ?_
  simp only [hnumber]
  rfl

theorem loadInclude_package {name : String} (h : '/' ∉ name.toList) (d : Nat) :
    Within .noInitials (.scope globalScope) ⟨true, true⟩ (loadInclude d name) := by
  have bound (p : Package) : Within .noInitials (.scope globalScope) ⟨true, true⟩
      (assign globalScope name (.package p)) := .assign globalScope rfl _
  cases d with
  | zero =>
    rw [loadInclude]
    exact Within.lift _
  | succ d =>
    rw [loadInclude, if_neg (by simpa using h)]
    exact Within.parts

theorem loadIncludes_packages {names : List String}
    (h : ∀ name ∈ names, '/' ∉ name.toList) (d : Nat) :
    Within .noInitials (.scope globalScope) ⟨true, true⟩ (loadIncludes d names) := by
  cases d with
  | zero =>
    cases names with
    | nil =>
      rw [loadIncludes]
      exact .pure trivial
    | cons =>
      rw [loadIncludes]
      · exact Within.lift _
      · exact nofun
  | succ d =>
    rw [loadIncludes]
    exact .forM fun name hname => loadInclude_package (h name hname) d

theorem runProgram_numbered {p : Program} (hp : p.obeys .noInitials = true)
    (hincludes : ∀ name ∈ p.includes, '/' ∉ name.toList) (base : Nat) :
    Within .noInitials (.scope globalScope) ⟨true, true⟩ (runProgram (p.numbered base)) := by
  unfold runProgram runStatements
  refine (loadIncludes_packages hincludes includeLimit).seq <| .foldlM trivial fun s hs _ _ => ?_
  obtain ⟨settled, hobeys⟩ := Numbering.stmts_settled hp base s hs
  rw [runStatement_settled settled]
  exact ((Behaves.all .noInitials evaluationLimit).execute globalScope false s hobeys).mono
    (.inr rfl) fun _ _ => ⟨fun _ => rfl, fun _ => rfl⟩

/-- A world to start in, with what a used one keeps with the program text. -/
def World.keeping (fresh used : World) : World :=
  { fresh with code := { fresh.code with
      propertyValues := used.code.propertyValues
      sites := used.code.sites } }

variable {w w' : World} {i : Nat} {v : Value}

theorem World.keeping_of_effect {used : World} (h : Effect lic own w.code used.code)
    (hlic : lic.initials = false) : w.keeping used = w := by
  unfold World.keeping
  rw [h.values hlic, h.sites]

theorem World.begin_obeys (lic : Licence) (w : World) : w.begin.code.Obeys lic := by
  constructor <;> simp [World.begin]

/-! ## Class definitions that run again -/

theorem Effect.mem {a b : Code} (h : Effect lic own a b) {key : Nat × Nat}
    (hkey : key ∈ a.propertyValues) : key ∈ b.propertyValues := by
  rw [Std.HashMap.mem_iff_isSome_getElem?] at hkey ⊢
  obtain ⟨g, hg⟩ := Option.isSome_iff_exists.1 hkey
  obtain ⟨g', hg', -⟩ := h.keeps key g hg
  rw [hg']
  rfl

theorem Effect.null {a b : Code} (h : Effect lic own a b) {key : Nat × Nat}
    (hkey : a.given? key = some .null) : b.given? key = some .null := by
  obtain ⟨g, hg, hnull⟩ := Option.map_eq_some_iff.1 hkey
  obtain ⟨g', hg', rfl | ⟨-, hnull'⟩⟩ := h.keeps key g hg
  · exact Option.map_eq_some_iff.2 ⟨g', hg', hnull⟩
  · exact Option.map_eq_some_iff.2 ⟨g', hg', hnull'⟩

theorem Within.effect_of_ok {α : Type} {exits : Exits} {x : Action α} {a : α}
    (h : Within .full own exits x) (hrun : x w = .ok a w') : Effect .full own w.code w'.code :=
  h.rel_of_ok w.code.obeys_full hrun w.code.obeys_full

/-- Each property that has a value before is null after the initial values were given again. -/
theorem giveInitials_again {exits : Exits} {value : Expr → Action Value}
    (hvalue : ∀ e, Within .full own exits (value e)) {ps : List (PropertyDef Expr × Nat)}
    {p : PropertyDef Expr} (hmem : (p, i) ∈ ps) (hp : p.value.isSome)
    (hgiven : (site, i) ∈ w.code.propertyValues) (hrun : giveInitials value site ps w = .ok () w') :
    w'.code.given? (site, i) = some .null := by
  have giving (qs : List (PropertyDef Expr × Nat)) :
      Within .full own exits (giveInitials value site qs) :=
    Within.giveInitials fun _ _ _ e _ => ⟨rfl, hvalue e⟩
  induction ps generalizing w with
  | nil => contradiction
  | cons q ps ih =>
    obtain ⟨_, w₁, hfirst, hrest⟩ := bind_eq_ok hrun
    have heffect :=
      Within.effect_of_ok (.forM? fun e _ => Within.giveInitial site q.2 rfl (hvalue e)) hfirst
    rcases List.mem_cons.1 hmem with rfl | hmem
    · -- null is given here, and stays
      obtain ⟨e, he⟩ := Option.isSome_iff_exists.1 hp
      change p.value.forM (fun e => giveInitial site i (value e)) w = _ at hfirst
      rw [he] at hfirst
      have hnull : setInitial site i .null w = .ok () w₁ := by
        rw [← giveInitial_again hgiven]
        exact hfirst
      cases hnull
      exact ((giving ps).effect_of_ok hrest).null
        (by rw [Code.given?_give, if_pos rfl])
    · exact ih hmem (heffect.mem hgiven) hrest

theorem given?_setInitial {j : Nat} (h : setInitial site j v w = .ok () w') (i : Nat) :
    w'.code.given? (site, i) = if j = i then some v else w.code.given? (site, i) := by
  cases h
  simp [Code.given?_give]

theorem giveInitial_literal (d : Nat) (scope : ScopeId) (site j : Nat) (lit : Literal) (w : World) :
    giveInitial site j (evaluate (d + 1) scope (.literal lit)) w =
      setInitial site j (if (site, j) ∈ w.code.propertyValues then .null else .ofLiteral lit)
        w := by
  split
  · next hgiven => exact giveInitial_again hgiven
  · next hnew =>
    rw [giveInitial_first hnew, evaluate]
    rfl

/-- Where all initial values are literals, each property gets its own the first time and null when
it was given before; properties that are not in the list keep what they have. -/
theorem giveInitials_literals (d : Nat) (scope : ScopeId) (site : Nat)
    {ps : List (PropertyDef Expr × Nat)} (hps : (ps.map Prod.snd).Nodup)
    (hlit : ∀ q ∈ ps, ∀ e ∈ q.1.value, ∃ lit, e = .literal lit) (w : World) :
    ∃ w', giveInitials (evaluate (d + 1) scope) site ps w = .ok () w' ∧
      w'.code.classes = w.code.classes ∧
      (∀ p i lit, (p, i) ∈ ps → p.value = some (.literal lit) → w'.code.given? (site, i) =
        some (if (site, i) ∈ w.code.propertyValues then .null else .ofLiteral lit)) ∧
      ∀ i, i ∉ ps.map Prod.snd →
        w'.code.given? (site, i) = w.code.given? (site, i) := by
  induction ps generalizing w with
  | nil => exact ⟨w, rfl, rfl, nofun, fun _ _ => rfl⟩
  | cons q ps ih =>
    obtain ⟨q, j⟩ := q
    rw [List.forall_mem_cons] at hlit
    obtain ⟨hj, hps⟩ := List.nodup_cons.1 hps
    -- the first property, which says nothing about the others
    obtain ⟨w₁, hfirst, hclasses, hown, hother⟩ : ∃ w₁,
        q.value.forM (fun e => giveInitial site j (evaluate (d + 1) scope e)) w = .ok ⟨⟩ w₁ ∧
        w₁.code.classes = w.code.classes ∧
        (∀ lit, q.value = some (.literal lit) → w₁.code.given? (site, j) =
          some (if (site, j) ∈ w.code.propertyValues then .null else .ofLiteral lit)) ∧
        ∀ i ≠ j, w₁.code.given? (site, i) = w.code.given? (site, i) := by
      cases hq : q.value with
      | none => exact ⟨w, rfl, rfl, nofun, fun _ _ => rfl⟩
      | some e =>
        obtain ⟨lit, rfl⟩ := hlit.1 e hq
        refine ⟨_, giveInitial_literal d scope site j lit w, rfl, fun lit' hlit' => ?_,
          fun i hi => ?_⟩
        · cases hlit'
          rw [given?_setInitial rfl, if_pos rfl]
        · rw [given?_setInitial rfl, if_neg hi.symm]
    obtain ⟨w', hrest, hclasses', hlater, hkept⟩ := ih hps hlit.2 w₁
    refine ⟨w', (bind_ok hfirst).trans hrest, hclasses'.trans hclasses, fun p i lit hmem hp => ?_,
      fun i hi => ?_⟩
    · rcases List.mem_cons.1 hmem with heq | hmem
      · cases heq
        rw [hkept _ hj, hown lit hp]
      · have hi : i ≠ j := fun heq => hj (List.mem_map.2 ⟨(p, i), hmem, heq⟩)
        have hsame : (site, i) ∈ w₁.code.propertyValues ↔ (site, i) ∈ w.code.propertyValues := by
          rw [← Code.given?_isSome, hother i hi, Code.given?_isSome]
        rw [hlater p i lit hmem hp]
        simp only [hsame]
    · rw [List.map_cons, List.mem_cons, not_or] at hi
      rw [hkept i hi.2, hother i hi.1]

/-- The class that a definition without parent gives. -/
def ClassDef.info (c : ClassDef Expr (List Stmt)) : ClassInfo :=
  { name := c.name, parent := none, methods := c.methods, properties := propertyRefs c }

/-- A definition without parent whose initial values are literals gives a new class. -/
theorem defineClass_literals (d : Nat) (scope : ScopeId) {c : ClassDef Expr (List Stmt)}
    (hparent : c.parent = none) (hlit : ∀ p ∈ c.properties, ∀ e ∈ p.value, ∃ lit, e = .literal lit)
    (w : World) :
    ∃ w', defineClass (d + 2) scope c w = .ok (.class w.code.classes.size) w' ∧
      w'.code.classes = w.code.classes.push c.info ∧
      ∀ i p lit, c.properties[i]? = some p → p.value = some (.literal lit) →
        w'.code.given? (c.site, i) =
          some (if (c.site, i) ∈ w.code.propertyValues then .null else .ofLiteral lit) := by
  have hnodup : (c.properties.zipIdx.map Prod.snd).Nodup := by
    rw [List.zipIdx_map_snd]
    exact List.nodup_range'
  obtain ⟨w₁, hrun, hclasses, hgiven, -⟩ := giveInitials_literals d scope c.site hnodup
    (fun q hq e he => hlit q.1 (List.fst_mem_of_mem_zipIdx hq) e he) w
  rw [defineClass, hparent, ← hclasses]
  refine ⟨_, (bind_ok (a := none) rfl).trans ((bind_ok hrun).trans rfl), rfl, ?_⟩
  intro i p lit hp hlit
  exact hgiven p i lit (List.mk_mem_zipIdx_iff_getElem?.2 hp) hlit

theorem Code.propertyValue_declared {c : Code} {r : PropertyRef} (hr : r.source = .declared site i)
    (hv : c.given? (site, i) = some v) : c.propertyValue r = v := by
  unfold Code.propertyValue
  rw [hr]
  show (c.given? (site, i)).getD .null = v
  rw [hv]
  rfl

/-- A definition that runs again gives null to each property that it gave an initial value. -/
theorem defineClass_again {d : Nat} {scope : ScopeId} {c : ClassDef Expr (List Stmt)}
    (hrun : defineClass (d + 1) scope c w = .ok v w') {p : PropertyDef Expr}
    (hp : c.properties[i]? = some p) (hvalue : p.value.isSome)
    (hgiven : (c.site, i) ∈ w.code.propertyValues) : w'.code.given? (c.site, i) = some .null := by
  rw [defineClass] at hrun
  obtain ⟨parent, w₁, hparent, hrun⟩ := bind_eq_ok hrun
  obtain ⟨_, w₂, hinitials, hrun⟩ := bind_eq_ok hrun
  have hfound : Within .full (.scope scope) ⟨true, true⟩ (c.parent.mapM (classNamed scope)) :=
    (Policy.Ensures.mapM? fun _ _ => Within.classNamed _ _).any
  have hnull := giveInitials_again
    (fun e => (Behaves.all .full d).evaluate scope e e.obeys_full)
    (List.mk_mem_zipIdx_iff_getElem?.2 hp) hvalue
    ((hfound.effect_of_ok hparent).mem hgiven) hinitials
  -- what is left makes the class and binds its name
  cases hrun
  exact hnull

/-- What a run leaves behind is the initial values of properties. A program without any runs again,
with what its first run kept with the text, exactly as it did at first. A definition leaves the
classes that are there as they are, and without initial values also the values of all properties;
but each property whose initial value it gave before is null from now on, also in the classes that
it gave before. Where the initial values are literals, the first run gives each property its own. -/
theorem only_initial_values_outlive_a_run (p : Program) (base : Nat) (v : World) (d : Nat)
    (scope : ScopeId) (c : ClassDef Expr (List Stmt)) (w : World) :
    (p.obeys .noInitials = true → (∀ name ∈ p.includes, '/' ∉ name.toList) →
      runProgram (p.numbered base)
          (v.begin.keeping ((runProgram (p.numbered base)).final v.begin)) =
        runProgram (p.numbered base) v.begin) ∧
    (∀ u w', defineClass (d + 1) scope c w = .ok u w' →
      (∀ l < w.code.classes.size, w'.code.classes[l]? = w.code.classes[l]?) ∧
      (w.code.Obeys .noInitials → (Stmt.classDef c).obeys .noInitials false = true →
        w'.code.propertyValues = w.code.propertyValues) ∧
      ∀ i p r, c.properties[i]? = some p → p.value.isSome →
        (c.site, i) ∈ w.code.propertyValues → r.source = .declared c.site i →
        w'.code.propertyValue r = .null) ∧
    (c.parent = none → (∀ p ∈ c.properties, ∀ e ∈ p.value, ∃ lit, e = .literal lit) →
      ∃ w', defineClass (d + 2) scope c w = .ok (.class w.code.classes.size) w' ∧
        w'.code.classes = w.code.classes.push c.info ∧
        ∀ i p lit r, c.properties[i]? = some p → p.value = some (.literal lit) →
          r.source = .declared c.site i → w'.code.propertyValue r =
            if (c.site, i) ∈ w.code.propertyValues then .null else .ofLiteral lit) := by
  refine ⟨fun hp hincludes => ?_, fun u w' hrun => ⟨?_, ?_, ?_⟩, fun hparent hlit => ?_⟩
  · have heffect := (runProgram_numbered hp hincludes base).final (v.begin_obeys .noInitials)
    rw [World.keeping_of_effect heffect rfl]
  · intro l hl
    have hdefine := (Behaves.all .full (d + 1)).defineClass scope c (Stmt.obeys_full _ _)
    exact (hdefine.effect_of_ok hrun).classes l hl nofun
  · intro hw hc
    have hrel := ((Behaves.all .noInitials (d + 1)).defineClass scope c hc).rel_of_ok hw hrun
    exact (hrel hw).values rfl
  · intro i p r hp hvalue hgiven hr
    exact Code.propertyValue_declared hr (defineClass_again hrun hp hvalue hgiven)
  · obtain ⟨w', hrun, hclasses, hgiven⟩ := defineClass_literals d scope hparent hlit w
    exact ⟨w', hrun, hclasses,
      fun i p lit r hp hlit hr => Code.propertyValue_declared hr (hgiven i p lit hp hlit)⟩

/-- A class with one property. -/
def classOfX (value : Option Expr) : ClassDef Expr (List Stmt) :=
  { name := "A", parent := none, methods := [], properties := [{ name := "x", value }], site := 1 }

/-- A class whose property has no initial value runs again as at first. One whose property is 5
gives 5 the first time. -/
theorem classOfX_runs_again :
    (Program.obeys .noInitials ⟨[], [.classDef (classOfX none)]⟩ = true ∧
      let p := Program.numbered ⟨[], [.classDef (classOfX none)]⟩ 0
      runProgram p (World.keeping (World.begin {}) ((runProgram p).final (World.begin {}))) =
        runProgram p (World.begin {})) ∧
    ∃ w, defineClass 9 globalScope (classOfX (some (.literal (.whole 5)))) {} = .ok (.class 0) w ∧
      w.code.propertyValue ⟨"x", .everyone, false, .declared 1 0⟩ =
        if (1, 0) ∈ ({} : World).code.propertyValues then .null else .int 5 := by
  obtain ⟨programs, -, literals⟩ := only_initial_values_outlive_a_run
    ⟨[], [.classDef (classOfX none)]⟩ 0 {} 7 globalScope (classOfX (some (.literal (.whole 5)))) {}
  obtain ⟨w, hrun, -, hgiven⟩ := literals rfl (by simp [classOfX])
  exact ⟨⟨rfl, programs rfl nofun⟩, w, hrun, hgiven 0 _ _ _ rfl rfl rfl⟩

/-- A definition that runs a second time in one session gives a class whose property is null, and so
is then the property of the class that it gave at first, which was 5. -/
theorem classOfX_forgets :
    ∃ w w', defineClass 9 globalScope (classOfX (some (.literal (.whole 5)))) {} =
      .ok (.class 0) w ∧
      (w.code.classAt 0).properties.map w.code.propertyValue = [.int 5] ∧
      defineClass 9 globalScope (classOfX (some (.literal (.whole 5)))) w = .ok (.class 1) w' ∧
      (w'.code.classAt 0).properties.map w'.code.propertyValue = [.null] ∧
      (w'.code.classAt 1).properties.map w'.code.propertyValue = [.null] := by
  have hlit : ∀ p ∈ (classOfX (some (.literal (.whole 5)))).properties, ∀ e ∈ p.value,
      ∃ lit, e = .literal lit := by simp [classOfX]
  obtain ⟨w, hrun, hclasses, hgiven⟩ := defineClass_literals 7 globalScope rfl hlit {}
  obtain ⟨w', hrun', hclasses', hgiven'⟩ := defineClass_literals 7 globalScope rfl hlit w
  have hnew : (1, 0) ∉ ({} : World).code.propertyValues := Std.HashMap.not_mem_empty
  have hfive : w.code.given? (1, 0) = some (.int 5) :=
    (hgiven 0 _ _ rfl rfl).trans (congrArg some (if_neg hnew))
  have hknown : (1, 0) ∈ w.code.propertyValues := by
    rw [← Code.given?_isSome, hfive]
    rfl
  have hnull : w'.code.given? (1, 0) = some .null :=
    (hgiven' 0 _ _ rfl rfl).trans (congrArg some (if_pos hknown))
  rw [hclasses] at hrun' hclasses'
  refine ⟨w, w', hrun, ?_, hrun', ?_, ?_⟩
  · rw [Code.classAt, hclasses]
    exact congrArg (· :: []) (Code.propertyValue_declared rfl hfive)
  · rw [Code.classAt, hclasses']
    exact congrArg (· :: []) (Code.propertyValue_declared rfl hnull)
  · rw [Code.classAt, hclasses']
    exact congrArg (· :: []) (Code.propertyValue_declared rfl hnull)

end ScriptLang
