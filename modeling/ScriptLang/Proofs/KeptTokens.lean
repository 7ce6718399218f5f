import Mathlib.Tactic.IntervalCases
import ScriptLang.Proofs.Entries
import ScriptLang.Proofs.ProgramParts

/-!
# Parsing keeps every token

The names, literals and operators of a program tree, in the order of a walk through it (`words`),
are those of the tokens it was read from. Every way of building trees keeps to this
(`words_grammar`), with two kinds of source left out: class definitions, whose trees keep methods
and properties apart, and objects with a repeated key, of which the tree keeps the last value only.
-/

namespace ScriptLang

/-! ## Words of tokens and of trees -/

/-- Whether a lexeme only says how a tree is built: a separator, a bracket, or a keyword that is no
value. -/
def Lexeme.isMark : Lexeme → Bool
  | .keyword .trueWord | .keyword .falseWord | .keyword .nullWord | .keyword .thisWord => false
  | .keyword _ => true
  | .symbol .lparen | .symbol .rparen | .symbol .lbrace | .symbol .rbrace | .symbol .lbracket
  | .symbol .rbracket | .symbol .semicolon | .symbol .comma | .symbol .dot => true
  | _ => false

/-- The words of tokens: what is left without marks and the end. -/
def wordsOf (ts : List Token) : List Lexeme :=
  (ts.map (·.lexeme)).filter fun l => !l.isMark && l.kind ≠ .finish

mutual

/-- The words of an expression, in the order of a walk through it. -/
def Expr.words : Expr → List Lexeme
  | .literal v => [v.lexeme]
  | .name x => [.name x]
  | .this => [.keyword .thisWord]
  | .array xs => exprsWords xs
  | .object fs => fieldsWords fs
  | .function ⟨name, params, body⟩ => name.toList.map .name ++ params.map .name ++ stmtsWords body
  | .call f xs => f.words ++ exprsWords xs
  | .member o x => o.words ++ [.name x]
  | .index a i => a.words ++ i.words
  | .unary op e => .symbol op.symbol :: e.words
  | .binary op l r => l.words ++ .symbol op.symbol :: r.words
  | .assign x e => .name x :: .symbol .assign :: e.words
  | .assignIndex a i e => a.words ++ i.words ++ .symbol .assign :: e.words
  | .assignMember o x e => o.words ++ .name x :: .symbol .assign :: e.words
  | .new c xs => .name c :: exprsWords xs

/-- The words of expressions. -/
def exprsWords : List Expr → List Lexeme
  | [] => []
  | e :: es => e.words ++ exprsWords es

/-- The words of the fields of an object. -/
def fieldsWords : List (String × Expr) → List Lexeme
  | [] => []
  | (x, e) :: fs => .name x :: .symbol .assign :: e.words ++ fieldsWords fs

/-- The words of an expression that may be missing. -/
def exprWords? : Option Expr → List Lexeme
  | none => []
  | some e => e.words

/-- The words of a statement. Those of a class definition are left out. -/
def Stmt.words : Stmt → List Lexeme
  | .expr e => e.words
  | .block body => stmtsWords body
  | .cond c t e => c.words ++ stmtsWords t ++ branchWords e
  | .while c body => c.words ++ stmtsWords body
  | .doWhile body c => stmtsWords body ++ c.words
  | .for i c s body => exprWords? i ++ exprWords? c ++ exprWords? s ++ stmtsWords body
  | .return v => exprWords? v
  | .break | .continue | .classDef _ => []

/-- The words of statements. -/
def stmtsWords : List Stmt → List Lexeme
  | [] => []
  | s :: ss => s.words ++ stmtsWords ss

/-- The words of the other branch of a conditional. -/
def branchWords : Option (List Stmt) → List Lexeme
  | none => []
  | some body => stmtsWords body

end

/-- The words of a program. -/
def Program.words (p : Program) : List Lexeme :=
  p.includes.map .includes ++ stmtsWords p.statements

theorem exprsWords_eq (xs : List Expr) : exprsWords xs = xs.flatMap Expr.words := by
  induction xs with
  | nil => rfl
  | cons x xs ih => rw [exprsWords, List.flatMap_cons, ih]

theorem fieldsWords_eq (fs : List (String × Expr)) :
    fieldsWords fs = fs.flatMap fun f => .name f.1 :: .symbol .assign :: f.2.words := by
  induction fs with
  | nil => rfl
  | cons f fs ih => rw [fieldsWords, List.flatMap_cons, ih]

/-- The words among lexemes. -/
def spoken (ls : List Lexeme) : List Lexeme :=
  ls.filter fun l => !l.isMark && l.kind ≠ .finish

@[simp] theorem spoken_nil : spoken [] = [] :=
  rfl

@[simp] theorem spoken_append (ls ms : List Lexeme) : spoken (ls ++ ms) = spoken ls ++ spoken ms :=
  List.filter_append ls ms

@[simp] theorem spoken_keyword (k : Keyword) (ls : List Lexeme) : spoken (.keyword k :: ls) =
    if (Lexeme.keyword k).isMark then spoken ls else .keyword k :: spoken ls := by
  cases h : (Lexeme.keyword k).isMark <;> simp [spoken, h, Lexeme.kind]

@[simp] theorem spoken_symbol (s : Symbol) (ls : List Lexeme) : spoken (.symbol s :: ls) =
    if (Lexeme.symbol s).isMark then spoken ls else .symbol s :: spoken ls := by
  cases h : (Lexeme.symbol s).isMark <;> simp [spoken, h, Lexeme.kind]

@[simp] theorem spoken_name (x : String) (ls : List Lexeme) :
    spoken (.name x :: ls) = .name x :: spoken ls :=
  rfl

theorem spoken_names (xs : List String) : spoken (xs.map .name) = xs.map .name := by
  induction xs with
  | nil => rfl
  | cons x xs ih => rw [List.map_cons, spoken_name, ih]

theorem wordsOf_append (ts us : List Token) : wordsOf (ts ++ us) = wordsOf ts ++ wordsOf us := by
  rw [wordsOf, List.map_append, List.filter_append, wordsOf, wordsOf]

namespace Parser

/-! ## Tokens that are kept -/

/-- The fields of an object, repeated keys included, as they are read after a brace among the
tokens. After the brace of a block none are read. -/
def ReadsObject (r : Nat) (tokens : List Token) (fields : List (String × Expr)) : Prop :=
  ∃ brace rest d after, brace :: rest <:+ tokens ∧ brace.lexeme = .symbol .lbrace ∧
    (listUntil r .rbrace (field (expression r d))).run rest = .ok (fields, after)

/-- Tokens without class definitions and without repeated keys. -/
structure Plain (r : Nat) (tokens : List Token) : Prop where
  noClass : ∀ t ∈ tokens, t.lexeme ≠ .keyword .classWord
  distinct : ∀ fields, ReadsObject r tokens fields → (fields.map (·.1)).Nodup

variable {α : Type} {r : Nat} {ts us : List Token} {e : Token}

theorem Plain.of_suffix (h : Plain r ts) (hus : us <:+ ts) : Plain r us := by
  constructor
  · intro t ht
    exact h.noClass t (hus.subset ht)
  · rintro fields ⟨brace, rest, d, after, hrest, hbrace, hrun⟩
    exact h.distinct fields ⟨brace, rest, d, after, hrest.trans hus, hbrace, hrun⟩

/-- The tokens before the end `e` are plain together with those from it on. -/
structure PlainBefore (r : Nat) (us : List Token) (e : Token) (ts : List Token) : Prop where
  finish : e.kind = .finish
  behind : From e us
  plain : Plain r (ts ++ us)

instance : Hereditary (PlainBefore r us) where
  of_suffix := by
    rintro e _ ts h ⟨cs, rfl⟩
    exact ⟨h.finish, h.behind, h.plain.of_suffix ⟨cs, (List.append_assoc cs ts us).symm⟩⟩

theorem not_seen_class : ¬ Seen (PlainBefore r us) (.keyword .classWord) := by
  rintro ⟨e, t, ts, h, ht⟩
  exact h.plain.noClass t List.mem_cons_self ht

theorem nodup_of_readsFields {fields : List (String × Expr)}
    (h : ReadsFields (PlainBefore r us) r fields) : (fields.map (·.1)).Nodup := by
  obtain ⟨e, ts, rest, d, hts, hbrace, hrun⟩ := h
  cases ts with
  | nil => cases (congrArg Lexeme.kind hbrace).symm.trans hts.finish
  | cons brace ts =>
    exact hts.plain.distinct fields ⟨brace, ts ++ us, d, _, List.suffix_refl _, hbrace,
      hrun us hts.behind⟩

/-! ## Words of phrases -/

section

variable {good : List Lexeme → α → Prop} {ls : List Lexeme} (words : α → List Lexeme)
  (hgood : ∀ ls x, good ls x → spoken ls = words x)

include hgood

theorem spoken_each {xs : List α} (h : Each good ls xs) : spoken ls = xs.flatMap words := by
  induction xs generalizing ls with
  | nil => exact h ▸ rfl
  | cons x xs ih =>
    obtain ⟨ms, ns, rfl, hx, hxs⟩ := h
    rw [spoken_append, hgood _ _ hx, ih hxs, List.flatMap_cons]

theorem spoken_listed {close : Symbol} (hclose : (Lexeme.symbol close).isMark = true) {xs : List α}
    (h : Listed good close ls xs) : spoken ls = xs.flatMap words := by
  obtain ⟨ms, rfl, hxs⟩ := h
  rw [spoken_append, spoken_each words ?_ hxs]
  · simp [spoken, hclose]
  · rintro ls x (hx | ⟨ns, rfl, hx⟩)
    · exact hgood _ _ hx
    · rw [spoken_append, hgood _ _ hx]
      exact List.append_nil _

end

/-- The lexemes of an expression have its words. -/
abbrev SpokenExpr (ls : List Lexeme) (e : Expr) : Prop :=
  spoken ls = e.words

/-- The lexemes of a statement have its words. -/
abbrev SpokenStmt (ls : List Lexeme) (s : Stmt) : Prop :=
  spoken ls = s.words

section

variable {ls : List Lexeme}

theorem spoken_exprs {close : Symbol} (hclose : (Lexeme.symbol close).isMark = true)
    {xs : List Expr} (h : Listed SpokenExpr close ls xs) : spoken ls = exprsWords xs := by
  rw [exprsWords_eq, spoken_listed Expr.words (fun _ _ => id) hclose h]

theorem spoken_expr? {o : Option Expr} (h : Perhaps SpokenExpr ls o) :
    spoken ls = exprWords? o := by
  cases o with
  | none => exact h ▸ rfl
  | some e => exact h

theorem spoken_statements {os : List (Option Stmt)} (h : Each (OrEmpty SpokenStmt) ls os) :
    spoken ls = stmtsWords (os.filterMap id) := by
  induction os generalizing ls with
  | nil => exact h ▸ rfl
  | cons o os ih =>
    obtain ⟨ms, ns, rfl, ho, hos⟩ := h
    rw [spoken_append, ih hos]
    cases o with
    | none => exact ho ▸ rfl
    | some s => rw [show spoken ms = s.words from ho]; rfl

theorem spoken_body {body : List Stmt} (h : Body SpokenStmt ls body) :
    spoken ls = stmtsWords body := by
  obtain ⟨ms, os, rfl, hos, rfl⟩ := h
  simp [Lexeme.isMark, spoken_statements hos]

theorem spoken_otherwise {o : Option (List Stmt)} (h : Otherwise SpokenStmt ls o) :
    spoken ls = branchWords o := by
  cases o with
  | none => exact h ▸ rfl
  | some body =>
    obtain ⟨ms, rfl, hbody | ⟨s, rfl, hs⟩⟩ := h
    · simp [Lexeme.isMark, branchWords, spoken_body hbody]
    · simp [Lexeme.isMark, branchWords, stmtsWords, hs]

end

theorem words_grammar (r : Nat) (us : List Token) : Grammar (PlainBefore r us) r
    (fun ls e => spoken ls = e.words) (fun ls s => spoken ls = s.words) where
  literal v := by cases v with
    | bool b => cases b <;> rfl
    | _ => rfl
  name _ := rfl
  this := rfl
  inParens he := by simp [Lexeme.isMark, he]
  array hxs := by simp [Lexeme.isMark, Expr.words, spoken_exprs rfl hxs]
  object hfs hread := by
    have hfields := spoken_listed (fun f => .name f.1 :: .symbol .assign :: f.2.words) ?_ rfl hfs
    · rw [foldl_putField (nodup_of_readsFields hread)]
      simp [Lexeme.isMark, Expr.words, fieldsWords_eq, hfields]
    · rintro _ f ⟨ls, rfl, hf⟩
      simp [Lexeme.isMark, hf]
  function hname hparams hbody := by
    have hparams := spoken_listed (fun x => [.name x])
      (fun ls x (h : Named _ ls x) => by rw [h.1]; rfl) rfl hparams
    rw [← List.map_eq_flatMap] at hparams
    simp [Lexeme.isMark, Expr.words, spoken_names, hparams, spoken_body hbody]
  call hf hxs := by simp [Lexeme.isMark, Expr.words, hf, spoken_exprs rfl hxs]
  member ho := by simp [Lexeme.isMark, Expr.words, ho]
  index ha hi := by simp [Lexeme.isMark, Expr.words, ha, hi]
  unary {op} _ _ he := by cases op <;> simp [Lexeme.isMark, UnaryOp.symbol, Expr.words, he]
  binary {op} _ _ _ _ hl hr := by
    cases op <;> simp [Lexeme.isMark, BinaryOp.symbol, Expr.words, hl, hr]
  assign hx he := by simp [Lexeme.isMark, Expr.words, hx, he]
  assignIndex ht he := by simp [Lexeme.isMark, Expr.words, ht, he]
  assignMember ht he := by simp [Lexeme.isMark, Expr.words, ht, he]
  new hxs := by simp [Lexeme.isMark, Expr.words, spoken_exprs rfl hxs]
  expr he := by simp [Lexeme.isMark, Stmt.words, he]
  block hbody := by simp [Stmt.words, spoken_body hbody]
  cond hcond ht he := by
    simp [Lexeme.isMark, Stmt.words, hcond, spoken_body ht, spoken_otherwise he]
  whileLoop hcond hbody := by simp [Lexeme.isMark, Stmt.words, hcond, spoken_body hbody]
  doLoop hbody hcond := by simp [Lexeme.isMark, Stmt.words, hcond, spoken_body hbody]
  forLoop hi hcond hs hbody := by
    simp [Lexeme.isMark, Stmt.words, spoken_expr? hi, spoken_expr? hcond, spoken_expr? hs,
      spoken_body hbody]
  breakOut := rfl
  continueOn := rfl
  returnBack hv := by simp [Lexeme.isMark, Stmt.words, spoken_expr? hv]
  classDef hclass _ _ _ _ := absurd hclass not_seen_class

/-! ## Programs -/

/-- A program is read from the tokens before the end, and these have its words. -/
theorem exists_kept_of_parse {tokens : List Token} {p : Program}
    (hplain : Plain tokens.length tokens) (hparse : Program.parse tokens = .ok p) :
    ∃ cs us, tokens = cs ++ us ∧ (∀ t ∈ cs, t.kind ≠ .finish) ∧ (next us).kind = .finish ∧
      wordsOf cs = p.words := by
  obtain ⟨ts, us, e, rfl, hends, hus⟩ := exists_ends tokens
  obtain ⟨cs, ds, items, rfl, hcs, -, hrow, hp⟩ :=
    exists_row_of_parse (words_grammar _ us) hends hus ⟨hends.finish, hus, hplain⟩
    (Nat.le_refl _) hparse 0
  refine ⟨cs ++ ds, us, rfl, hends.inside, ?_, ?_⟩
  · show (us.headD _).kind = .finish
    rw [hus]
    exact hends.finish
  · have hdirective : wordsOf cs = p.includes.map .includes := by
      rw [wordsOf, hcs, List.filter_eq_self.2]
      intro l hl
      obtain ⟨name, -, rfl⟩ := List.mem_map.1 hl
      rfl
    rw [wordsOf_append, hdirective, Program.words, hp]
    exact congrArg _ (spoken_statements hrow.each)

/-- Parsing keeps every token: without class definitions and repeated keys, the names, literals and
operators of the tokens up to the end are those of the program, in the same order. Where the end is
the last token, these are all tokens. -/
theorem parse_keeps_every_token {tokens : List Token} {p : Program}
    (hparse : Program.parse tokens = .ok p) (hplain : Plain tokens.length tokens) :
    (∃ cs us, tokens = cs ++ us ∧ (∀ t ∈ cs, t.kind ≠ .finish) ∧ (next us).kind = .finish ∧
      wordsOf cs = p.words) ∧
    ((∀ t ∈ tokens.dropLast, t.kind ≠ .finish) → wordsOf tokens = p.words) := by
  have hkept := exists_kept_of_parse hplain hparse
  refine ⟨hkept, fun hlast => ?_⟩
  obtain ⟨cs, us, rfl, -, hus, hwords⟩ := hkept
  rw [wordsOf_append, hwords]
  match us, hus with
  | [], _ => exact List.append_nil _
  | [t], (ht : t.kind = .finish) =>
    have hend : wordsOf [t] = [] := by
      rw [Token.kind] at ht
      simp [wordsOf, ht]
    rw [hend, List.append_nil]
  | t :: u :: us, ht =>
    refine absurd ht (hlast t ?_)
    rw [List.dropLast_append_of_ne_nil (List.cons_ne_nil _ _)]
    exact List.mem_append_right _ List.mem_cons_self

/-- An include directive, an assigned object without a comma between its fields and with one after
them, and a call with a comma missing. -/
def looseCommas : List Token :=
  [.includes "http",
    .name "x", .symbol .assign, .symbol .lbrace, .name "a", .symbol .assign, .whole 1,
    .name "b", .symbol .assign, .text "t", .symbol .comma, .symbol .rbrace, .symbol .semicolon,
    .name "f", .symbol .lparen, .name "x", .symbol .minus, .whole 2, .keyword .thisWord,
    .symbol .rparen,
    .symbol .semicolon, .finish].map fun l => ⟨l, 1, 1⟩

theorem plain_looseCommas : Plain looseCommas.length looseCommas := by
  constructor
  · simp [looseCommas]
  · rintro fields ⟨brace, rest, d, after, hrest, hbrace, hrun⟩
    obtain rfl : rest = looseCommas.drop 4 := by
      iterate 3
        rcases List.suffix_cons_iff.1 hrest with heq | hrest
        · obtain ⟨rfl, -⟩ := List.cons.inj heq
          cases hbrace
      rcases List.suffix_cons_iff.1 hrest with heq | hrest
      · exact (List.cons.inj heq).2
      · have hnone : ∀ t ∈ looseCommas.drop 4, t.lexeme ≠ .symbol .lbrace := by simp [looseCommas]
        exact absurd hbrace (hnone _ (hrest.subset List.mem_cons_self))
    rcases Nat.lt_or_ge d 9 with hd | hd
    · interval_cases d <;> exact nomatch hrun
    · obtain ⟨e, rfl⟩ := Nat.exists_eq_add_of_le' hd
      cases hrun
      decide

theorem looseCommas_kept :
    Program.parse looseCommas = .ok {
      includes := ["http"]
      statements := [
        .expr (.assign "x" (.object [("a", .literal (.whole 1)), ("b", .literal (.text "t"))])),
        .expr (.call (.name "f") [.binary .sub (.name "x") (.literal (.whole 2)), .this])] } ∧
    wordsOf looseCommas = [.includes "http", .name "x", .symbol .assign, .name "a", .symbol .assign,
      .whole 1, .name "b", .symbol .assign, .text "t", .name "f", .name "x",
      .symbol .minus, .whole 2,
      .keyword .thisWord] := by
  refine ⟨rfl, ?_⟩
  exact (parse_keeps_every_token rfl plain_looseCommas).2 (by decide)

end Parser

end ScriptLang
