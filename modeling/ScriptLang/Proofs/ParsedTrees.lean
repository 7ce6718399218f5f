import ScriptLang.Proofs.Entries
import ScriptLang.Proofs.Licence
import ScriptLang.Proofs.ProgramParts
import ScriptLang.Proofs.Scanning

/-!
# The trees of sources

The trees of sources bind nothing to the name of the receiver, and read nothing by it, since that is
a reserved word: no token is such a name, and every way of building trees keeps to the names of the
tokens.
-/

namespace ScriptLang

open ScriptLang.Parser

/-- No token is the name of the receiver. -/
def NoneIsThis (_ : Token) (ts : List Token) : Prop :=
  ∀ t ∈ ts, t.lexeme ≠ .name "this"

instance : Hereditary NoneIsThis := ⟨fun h hsuffix t ht => h t (hsuffix.subset ht)⟩

theorem ne_this_of_seen {x : String} (h : Seen NoneIsThis (.name x)) : x ≠ "this" := by
  obtain ⟨e, t, ts, hts, ht⟩ := h
  rintro rfl
  exact hts t List.mem_cons_self ht

theorem forall_object {R : Expr → Prop} {fields : List (String × Expr)} (h : ∀ f ∈ fields, R f.2) :
    ∀ f ∈ fields.foldl (fun fs f => putField f.1 f.2 fs) [], R f.2 := by
  suffices ∀ acc : List (String × Expr), (∀ f ∈ acc, R f.2) →
      ∀ f ∈ fields.foldl (fun fs f => putField f.1 f.2 fs) acc, R f.2 from this [] nofun
  induction fields with
  | nil => exact fun acc hacc => hacc
  | cons f fields ih =>
    rw [List.forall_mem_cons] at h
    intro acc hacc
    refine ih h.2 _ fun g hg => ?_
    rcases mem_putField hg with rfl | hg
    · exact h.1
    · exact hacc g hg

/-- The tree of an expression keeps to the names of the tokens. -/
def ObeyedExpr (_ : List Lexeme) (e : Expr) : Prop :=
  e.obeys .receivers = true

/-- The tree of a statement keeps to the names of the tokens. -/
def ObeyedStmt (_ : List Lexeme) (s : Stmt) : Prop :=
  ∀ inLoop, s.obeys .receivers inLoop = true

section

variable {ls : List Lexeme}

theorem obeyed_exprs {close : Symbol} {xs : List Expr} (h : Listed ObeyedExpr close ls xs) :
    exprsObey .receivers xs = true :=
  exprsObey_iff.2 fun x hx => (h.forall x hx).elim fun _ => id

theorem obeyed_expr? {o : Option Expr} (h : Perhaps ObeyedExpr ls o) :
    exprObeys? .receivers o = true :=
  exprObeys?_iff.2 fun x hx => (h.forall x hx).elim fun _ => id

theorem obeyed_body {body : List Stmt} (h : Body ObeyedStmt ls body) (inLoop : Bool) :
    stmtsObey .receivers inLoop body = true :=
  stmtsObey_iff.2 fun s hs => (h.forall s hs).elim fun _ h => h inLoop

end

theorem receivers_grammar (r : Nat) : Grammar NoneIsThis r ObeyedExpr ObeyedStmt where
  literal _ := by rw [ObeyedExpr, Expr.obeys]
  name hx := by simpa [ObeyedExpr, Expr.obeys, Licence.receivers] using ne_this_of_seen hx
  this := by rw [ObeyedExpr, Expr.obeys]
  inParens he := he
  array hxs := by rw [ObeyedExpr, Expr.obeys, obeyed_exprs hxs]
  object hfs _ := by
    rw [ObeyedExpr, Expr.obeys, fieldsObey_iff]
    refine forall_object (R := fun e => e.obeys .receivers = true) fun f hf => ?_
    obtain ⟨_, _, -, hvalue⟩ := hfs.forall f hf
    exact hvalue
  function hname hparams hbody := by
    rw [ObeyedExpr, function_obeys_iff]
    refine ⟨?_, ?_, obeyed_body hbody false⟩
    · simpa [Licence.receivers] using fun x hx => ne_this_of_seen (hname x hx)
    · simpa [Licence.receivers] using fun x hx => (hparams.forall x hx).elim fun _ h =>
        ne_this_of_seen h.2
  call hf hxs := by rw [ObeyedExpr, Expr.obeys, obeyed_exprs hxs, hf]; rfl
  member ho := by rw [ObeyedExpr, Expr.obeys, ho]
  index ha hi := by rw [ObeyedExpr, Expr.obeys, ha, hi]; rfl
  unary he := by rw [ObeyedExpr, Expr.obeys, he]
  binary hl hr := by rw [ObeyedExpr, Expr.obeys, hl, hr]; rfl
  assign hx he := by rw [ObeyedExpr, Expr.obeys, he, Bool.and_true]; exact hx
  assignIndex ht he := by rw [ObeyedExpr, Expr.obeys, he, Bool.and_true]; exact ht
  assignMember ht he := by rw [ObeyedExpr, Expr.obeys, he, Bool.and_true]; exact ht
  new hxs := by rw [ObeyedExpr, Expr.obeys, obeyed_exprs hxs]
  expr he _ := by rw [Stmt.obeys, he]
  block hbody _ := by rw [Stmt.obeys, obeyed_body hbody]
  cond hcond ht he _ := by
    rw [Stmt.obeys, hcond, obeyed_body ht, branchObeys_iff.2 fun b hb => stmtsObey_iff.2 fun s hs =>
      (he.forall b hb s hs).elim fun _ h => h _]
    rfl
  whileLoop hcond hbody _ := by rw [Stmt.obeys, hcond, obeyed_body hbody]; rfl
  doLoop hbody hcond _ := by rw [Stmt.obeys, hcond, obeyed_body hbody]; rfl
  forLoop hi hcond hs hbody _ := by
    rw [Stmt.obeys, obeyed_expr? hi, obeyed_expr? hcond, obeyed_expr? hs, obeyed_body hbody]
    rfl
  breakOut _ := by rw [Stmt.obeys]; rfl
  continueOn _ := by rw [Stmt.obeys]; rfl
  returnBack hv _ := by rw [Stmt.obeys, obeyed_expr? hv]
  classDef _ hname hms hps _ _ := by
    rw [classDef_obeys_iff, methodsObey_iff, propertiesObey_iff]
    refine ⟨?_, fun m hm => ⟨?_, ?_⟩, fun p hp e he => ⟨rfl, (hps p hp e he).elim fun _ => id⟩⟩
    · simpa [Licence.receivers] using ne_this_of_seen hname
    · simpa [Licence.receivers] using fun x hx => ne_this_of_seen ((hms m hm).1 x hx)
    · obtain ⟨_, hbody⟩ := (hms m hm).2
      exact obeyed_body hbody false

/-- What is parsed from the tokens of a source binds and reads nothing by the name of the
receiver. -/
theorem Parser.obeys_receivers_of_parse {source : String} {tokens : List Token} {p : Program}
    (hscan : scan source = .ok tokens) (hparse : Program.parse tokens = .ok p) :
    p.obeys .receivers = true := by
  obtain ⟨ts, us, e, rfl, hends, hus⟩ := exists_ends tokens
  have hnone : NoneIsThis e ts := fun t ht => scan_ne_this hscan t (List.mem_append_left us ht)
  obtain ⟨_, _, items, -, -, -, hrow, hp⟩ :=
    exists_row_of_parse (receivers_grammar _) hends hus hnone (Nat.le_refl _) hparse 0
  refine stmtsObey_iff.2 fun s hs => ?_
  rw [hp] at hs
  exact (forall_of_statements hrow.each s hs).elim fun _ h => h false

end ScriptLang
