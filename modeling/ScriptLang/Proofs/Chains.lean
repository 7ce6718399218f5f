import ScriptLang.Eval

/-!
# Chains of scopes and of classes

A scope is opened inside one that is there, and a class is made with a parent that is there. So each
is younger than its parent, and the chain of those around a scope, or of the ancestors of a class,
goes down to a first one without coming back (`Chain.exists_of_lt`). A search along such a chain is
over when the chain is, and its bound plays no part (`Code.lookup_eq`, `Code.method?_eq`,
`Code.property?_eq`).
-/

namespace ScriptLang

/-- The members from `i` on, each followed by its parent. -/
inductive Chain (parent : Nat → Option Nat) : Nat → List Nat → Prop
  | root {i : Nat} : parent i = none → Chain parent i [i]
  | link {i p : Nat} {ps : List Nat} : parent i = some p → Chain parent p ps →
      Chain parent i (i :: ps)

namespace Chain

variable {parent parent' : Nat → Option Nat} {i n : Nat} {ps : List Nat}

/-- Where parents are older, the chain from any member ends, and every member in it is older than
those before. -/
theorem exists_of_lt (h : ∀ i p, parent i = some p → p < i) (i : Nat) :
    ∃ ps, Chain parent i ps ∧ ps.Pairwise (· > ·) ∧ ps.length ≤ i + 1 ∧ ∀ j ∈ ps, j ≤ i := by
  induction i using Nat.strongRecOn with
  | _ i ih =>
    cases hparent : parent i with
    | none => exact ⟨[i], .root hparent, List.pairwise_singleton _ _, by simp, by simp⟩
    | some p =>
      have hlt := h i p hparent
      obtain ⟨ps, hchain, hdown, hlen, hle⟩ := ih p hlt
      refine ⟨i :: ps, .link hparent hchain, List.pairwise_cons.2 ⟨fun j hj => ?_, hdown⟩, ?_, ?_⟩
      · exact Nat.lt_of_le_of_lt (hle j hj) hlt
      · simp only [List.length_cons]
        omega
      · refine List.forall_mem_cons.2 ⟨Nat.le_refl i, fun j hj => ?_⟩
        exact Nat.le_of_lt (Nat.lt_of_le_of_lt (hle j hj) hlt)

theorem congr (h : Chain parent i ps) (hparent : ∀ j ∈ ps, parent' j = parent j) :
    Chain parent' i ps := by
  induction h with
  | root hroot => exact .root ((hparent _ List.mem_cons_self).trans hroot)
  | link hlink _ ih =>
    rw [List.forall_mem_cons] at hparent
    exact .link (hparent.1.trans hlink) (ih hparent.2)

end Chain

namespace Code

variable {c : Code}

def parentScope (c : Code) (i : ScopeId) : Option ScopeId :=
  c.scopes[i]?.bind (·.parent)

def parentClass (c : Code) (l : Loc) : Option Loc :=
  (c.classAt l).parent

/-- The value of a variable in a scope itself. -/
def ownVar (c : Code) (x : String) (i : ScopeId) : Option Value :=
  c.scopes[i]?.bind (·.vars[x]?)

/-- Scopes and classes are younger than their parents, and the scopes of functions are there. -/
structure Rooted (c : Code) : Prop where
  global : globalScope < c.scopes.size
  scopes : ∀ i p, c.parentScope i = some p → p < i
  functions : ∀ f ∈ c.functions, f.scope < c.scopes.size
  classes : ∀ l p, c.parentClass l = some p → p < l

theorem lookupFrom_eq {i : ScopeId} {ps : List ScopeId} (h : Chain c.parentScope i ps) {fuel : Nat}
    (hfuel : ps.length ≤ fuel) (x : String) :
    c.lookupFrom fuel i x = ps.findSome? (c.ownVar x) := by
  induction h generalizing fuel with
  | @root i hroot =>
    obtain ⟨fuel, rfl⟩ : ∃ n, fuel = n + 1 := Nat.exists_eq_add_of_le' hfuel
    rw [lookupFrom, List.findSome?_singleton, ownVar]
    rw [parentScope] at hroot
    cases hs : c.scopes[i]? with
    | none => rfl
    | some s =>
      rw [hs] at hroot
      cases hv : s.vars[x]? <;> simp_all
  | @link i p ps hlink _ ih =>
    obtain ⟨fuel, rfl⟩ :=
      Nat.exists_eq_add_of_le' (Nat.le_trans (Nat.succ_le_succ (Nat.zero_le _)) hfuel)
    rw [lookupFrom, List.findSome?_cons, ownVar]
    rw [parentScope] at hlink
    cases hs : c.scopes[i]? with
    | none => simp [hs] at hlink
    | some s =>
      have hparent : s.parent = some p := by simpa [hs] using hlink
      cases hv : s.vars[x]? with
      | some v => simp [hv]
      | none => simpa [hv, hparent] using ih (Nat.le_of_succ_le_succ hfuel)

theorem lookup_eq {i : ScopeId} {ps : List ScopeId} (h : Chain c.parentScope i ps)
    (hlen : ps.length ≤ i + 1) (x : String) : c.lookup i x = ps.findSome? (c.ownVar x) :=
  lookupFrom_eq h hlen x

variable {ps : List Loc} {l : Loc}

theorem findInChain_eq {α : Type} (h : Chain c.parentClass l ps) {fuel : Nat}
    (hfuel : ps.length ≤ fuel) (find : ClassInfo → Option α) :
    c.findInChain find fuel l = ps.findSome? fun k => find (c.classAt k) := by
  induction h generalizing fuel with
  | @root l hroot =>
    obtain ⟨fuel, rfl⟩ : ∃ n, fuel = n + 1 := Nat.exists_eq_add_of_le' hfuel
    have hparent : (c.classAt l).parent = none := hroot
    rw [findInChain, List.findSome?_singleton]
    cases find (c.classAt l) <;> simp [hparent]
  | @link l p ps hlink _ ih =>
    obtain ⟨fuel, rfl⟩ :=
      Nat.exists_eq_add_of_le' (Nat.le_trans (Nat.succ_le_succ (Nat.zero_le _)) hfuel)
    have hparent : (c.classAt l).parent = some p := hlink
    rw [findInChain, List.findSome?_cons]
    cases hfound : find (c.classAt l) with
    | some x => rfl
    | none => simpa [hfound, hparent] using ih (Nat.le_of_succ_le_succ hfuel)

/-- The number of classes bounds a search for what no class has that is not there. -/
theorem findInChain_size {α : Type} (h : Chain c.parentClass l ps) (hlen : ps.length ≤ l + 1)
    {find : ClassInfo → Option α}
    (hfind : find { name := "", parent := none, methods := [], properties := [] } = none) :
    c.findInChain find c.classes.size l = ps.findSome? fun k => find (c.classAt k) := by
  by_cases hl : l < c.classes.size
  · exact findInChain_eq h (Nat.le_trans hlen hl) find
  · have hnone : c.classAt l = { name := "", parent := none, methods := [], properties := [] } := by
      rw [classAt, Array.getElem?_eq_none (Nat.le_of_not_lt hl)]
      rfl
    -- the chain of a class that is not there is that class alone
    cases h with
    | link hlink => simp [parentClass, hnone] at hlink
    | root =>
      rw [List.findSome?_singleton, hnone, hfind]
      cases c.classes.size with
      | zero => rfl
      | succ n => simp [findInChain, hnone, hfind]

theorem method?_eq (h : Chain c.parentClass l ps) (hlen : ps.length ≤ l + 1) (isStatic : Bool)
    (name : String) (count : Nat) : c.method? isStatic l name count =
      ps.findSome? fun k => ownMethod isStatic name count (c.classAt k) :=
  findInChain_size h hlen rfl

theorem property?_eq (h : Chain c.parentClass l ps) (hlen : ps.length ≤ l + 1) (name : String) :
    c.property? l name =
      ps.findSome? fun k => (c.classAt k).properties.find? fun p => !p.isStatic && p.name == name :=
  findInChain_size h hlen rfl

end Code

end ScriptLang
