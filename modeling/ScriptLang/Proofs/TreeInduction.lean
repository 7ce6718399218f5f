import ScriptLang.Program

/-!
# Induction over program trees

Expressions and statements contain each other, through argument lists, fields, bodies, branches and
class members. A property of all expressions and a property of all statements are proved together,
with one case for each kind of node; each case may assume the properties of the parts of the node.
-/

namespace ScriptLang

/-- The cases of a proof about expressions and statements for the nodes of which nothing but their
parts has to be known. -/
structure NodeCases (P : Expr → Prop) (Q : Stmt → Prop) : Prop where
  this : P .this
  array : ∀ xs, (∀ x ∈ xs, P x) → P (.array xs)
  call : ∀ f xs, P f → (∀ x ∈ xs, P x) → P (.call f xs)
  member : ∀ o x, P o → P (.member o x)
  index : ∀ a i, P a → P i → P (.index a i)
  unary : ∀ op e, P e → P (.unary op e)
  binary : ∀ op l r, P l → P r → P (.binary op l r)
  new : ∀ c xs, (∀ x ∈ xs, P x) → P (.new c xs)
  expr : ∀ e, P e → Q (.expr e)
  block : ∀ body, (∀ s ∈ body, Q s) → Q (.block body)
  cond : ∀ c t e, P c → (∀ s ∈ t, Q s) → (∀ body ∈ e, ∀ s ∈ body, Q s) → Q (.cond c t e)
  whileLoop : ∀ c body, P c → (∀ s ∈ body, Q s) → Q (.while c body)
  doLoop : ∀ body c, (∀ s ∈ body, Q s) → P c → Q (.doWhile body c)
  forLoop : ∀ i c s body, (∀ e ∈ i, P e) → (∀ e ∈ c, P e) → (∀ e ∈ s, P e) → (∀ s ∈ body, Q s) →
    Q (.for i c s body)
  breakOut : Q .break
  continueOn : Q .continue
  returnBack : ∀ v, (∀ e ∈ v, P e) → Q (.return v)

/-- The cases of a proof that all expressions satisfy `P` and all statements satisfy `Q`. -/
structure TreeCases (P : Expr → Prop) (Q : Stmt → Prop) : Prop extends NodeCases P Q where
  literal : ∀ v, P (.literal v)
  name : ∀ x, P (.name x)
  object : ∀ fs : List (String × Expr), (∀ f ∈ fs, P f.2) → P (.object fs)
  function : ∀ f, (∀ s ∈ f.body, Q s) → P (.function f)
  assign : ∀ x e, P e → P (.assign x e)
  assignIndex : ∀ a i e, P a → P i → P e → P (.assignIndex a i e)
  assignMember : ∀ o x e, P o → P e → P (.assignMember o x e)
  classDef : ∀ c, (∀ m ∈ c.methods, ∀ s ∈ m.body, Q s) →
    (∀ p ∈ c.properties, ∀ e ∈ p.value, P e) → Q (.classDef c)

namespace TreeCases

variable {P : Expr → Prop} {Q : Stmt → Prop}

mutual

theorem all_expr (h : TreeCases P Q) : ∀ e, P e
  | .literal v => h.literal v
  | .name x => h.name x
  | .this => h.this
  | .array xs => h.array xs (h.all_exprs xs)
  | .object fs => h.object fs (h.all_fields fs)
  | .function ⟨name, params, body⟩ => h.function ⟨name, params, body⟩ (h.all_stmts body)
  | .call f xs => h.call f xs (h.all_expr f) (h.all_exprs xs)
  | .member o x => h.member o x (h.all_expr o)
  | .index a i => h.index a i (h.all_expr a) (h.all_expr i)
  | .unary op e => h.unary op e (h.all_expr e)
  | .binary op l r => h.binary op l r (h.all_expr l) (h.all_expr r)
  | .assign x e => h.assign x e (h.all_expr e)
  | .assignIndex a i e => h.assignIndex a i e (h.all_expr a) (h.all_expr i) (h.all_expr e)
  | .assignMember o x e => h.assignMember o x e (h.all_expr o) (h.all_expr e)
  | .new c xs => h.new c xs (h.all_exprs xs)

theorem all_exprs (h : TreeCases P Q) : ∀ xs : List Expr, ∀ x ∈ xs, P x
  | [] => by simp
  | x :: xs => List.forall_mem_cons.2 ⟨h.all_expr x, h.all_exprs xs⟩

theorem all_fields (h : TreeCases P Q) : ∀ fs : List (String × Expr), ∀ f ∈ fs, P f.2
  | [] => by simp
  | (_, e) :: fs => List.forall_mem_cons.2 ⟨h.all_expr e, h.all_fields fs⟩

theorem all_expr? (h : TreeCases P Q) : ∀ e : Option Expr, ∀ x ∈ e, P x
  | none => by simp
  | some e => by simpa using h.all_expr e

theorem all_stmt (h : TreeCases P Q) : ∀ s, Q s
  | .expr e => h.expr e (h.all_expr e)
  | .block body => h.block body (h.all_stmts body)
  | .cond c t e => h.cond c t e (h.all_expr c) (h.all_stmts t) (h.all_branch e)
  | .while c body => h.whileLoop c body (h.all_expr c) (h.all_stmts body)
  | .doWhile body c => h.doLoop body c (h.all_stmts body) (h.all_expr c)
  | .for i c s body =>
      h.forLoop i c s body (h.all_expr? i) (h.all_expr? c) (h.all_expr? s) (h.all_stmts body)
  | .break => h.breakOut
  | .continue => h.continueOn
  | .return v => h.returnBack v (h.all_expr? v)
  | .classDef ⟨name, parent, ms, ps, site⟩ =>
      h.classDef ⟨name, parent, ms, ps, site⟩ (h.all_methods ms) (h.all_properties ps)

theorem all_stmts (h : TreeCases P Q) : ∀ body : List Stmt, ∀ s ∈ body, Q s
  | [] => by simp
  | s :: body => List.forall_mem_cons.2 ⟨h.all_stmt s, h.all_stmts body⟩

theorem all_branch (h : TreeCases P Q) : ∀ e : Option (List Stmt), ∀ body ∈ e, ∀ s ∈ body, Q s
  | none => by simp
  | some body => by simpa using h.all_stmts body

theorem all_methods (h : TreeCases P Q) : ∀ ms :
    List (MethodDef (List Stmt)), ∀ m ∈ ms, ∀ s ∈ m.body, Q s
  | [] => by simp
  | ⟨_, _, body, _, _⟩ :: ms => List.forall_mem_cons.2 ⟨h.all_stmts body, h.all_methods ms⟩

theorem all_properties (h : TreeCases P Q) : ∀ ps :
    List (PropertyDef Expr), ∀ p ∈ ps, ∀ e ∈ p.value, P e
  | [] => by simp
  | ⟨_, value, _, _⟩ :: ps => List.forall_mem_cons.2 ⟨h.all_expr? value, h.all_properties ps⟩

end

end TreeCases

end ScriptLang
