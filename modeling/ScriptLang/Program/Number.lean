import ScriptLang.Program

/-!
# Numbering class definitions

The values of the properties of a class are kept with its definition in the program text. Before a
statement runs, the class definitions in it get numbers, one after the other as they stand in the
text, that tell them apart from each other and from those that ran before. A definition keeps the
number it has.
-/

namespace ScriptLang

/-- A computation that hands out numbers in order. -/
abbrev Numbering := StateM Nat

namespace Numbering

def next : Numbering Nat :=
  modifyGet fun n => (n + 1, n + 1)

mutual

/-- Numbers the class definitions in an expression. -/
def expr : Expr → Numbering Expr
  | .literal v => return .literal v
  | .name x => return .name x
  | .this => return .this
  | .array xs => return .array (← exprs xs)
  | .object fs => return .object (← fields fs)
  | .function ⟨name, params, body⟩ => return .function ⟨name, params, ← stmts body⟩
  | .call f xs => return .call (← expr f) (← exprs xs)
  | .member o name => return .member (← expr o) name
  | .index a i => return .index (← expr a) (← expr i)
  | .unary op e => return .unary op (← expr e)
  | .binary op l r => return .binary op (← expr l) (← expr r)
  | .assign x e => return .assign x (← expr e)
  | .assignIndex a i e => return .assignIndex (← expr a) (← expr i) (← expr e)
  | .assignMember o name e => return .assignMember (← expr o) name (← expr e)
  | .new name xs => return .new name (← exprs xs)

def exprs : List Expr → Numbering (List Expr)
  | [] => return []
  | e :: es => return (← expr e) :: (← exprs es)

def fields : List (String × Expr) → Numbering (List (String × Expr))
  | [] => return []
  | (x, e) :: fs => return (x, ← expr e) :: (← fields fs)

def expr? : Option Expr → Numbering (Option Expr)
  | none => return none
  | some e => return some (← expr e)

def stmt : Stmt → Numbering Stmt
  | .expr e => return .expr (← expr e)
  | .block body => return .block (← stmts body)
  | .cond c thenBody none => return .cond (← expr c) (← stmts thenBody) none
  | .cond c thenBody (some elseBody) =>
      return .cond (← expr c) (← stmts thenBody) (some (← stmts elseBody))
  | .while c body => return .while (← expr c) (← stmts body)
  | .doWhile body c => return .doWhile (← stmts body) (← expr c)
  | .for init c step body => return .for (← expr? init) (← expr? c) (← expr? step) (← stmts body)
  | .break => return .break
  | .continue => return .continue
  | .return e => return .return (← expr? e)
  | .classDef ⟨name, parent, ms, ps, site⟩ => do
      let site ← if site = 0 then next else pure site
      return .classDef ⟨name, parent, ← methods ms, ← properties ps, site⟩

def stmts : List Stmt → Numbering (List Stmt)
  | [] => return []
  | s :: ss => return (← stmt s) :: (← stmts ss)

def methods : List (MethodDef (List Stmt)) → Numbering (List (MethodDef (List Stmt)))
  | [] => return []
  | ⟨name, params, body, access, isStatic⟩ :: ms =>
      return ⟨name, params, ← stmts body, access, isStatic⟩ :: (← methods ms)

def properties : List (PropertyDef Expr) → Numbering (List (PropertyDef Expr))
  | [] => return []
  | ⟨name, value, access, isStatic⟩ :: ps =>
      return ⟨name, ← expr? value, access, isStatic⟩ :: (← properties ps)

end

end Numbering

end ScriptLang
