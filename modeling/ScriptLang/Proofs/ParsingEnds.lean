import Mathlib.Data.Nat.Find
import ScriptLang.Fault
import ScriptLang.Proofs.ProgramParts

/-!
# Parsing comes to an end

A parser never gets past the token that ends the source, and every round of a repetition takes a
token or fails, so that no repetition goes on at the end. `Settles` says this of a parser together
with what it means for its bounds. So tokens have one outcome, and a depth that they need
(`parsing_stops_at_the_end`).
-/

namespace ScriptLang

namespace ParseError

variable {tokens : List Token} {err : ParseError}

theorem About.kind (h : err.About tokens) : err.kind = .syntaxFault := by
  cases err with
  | tooDeep => exact h.elim
  | expected | unexpected | badTarget => rfl

theorem About.ne_tooDeep (h : err.About tokens) : err ≠ .tooDeep := by
  rintro rfl
  exact h

end ParseError

namespace Parser

variable {α : Type} {n d c k : Nat} {room : Prop} {left : List Token → Prop} {ts : List Token}
  {e : Token}

/-! ## Parsers that settle -/

/-- What comes of `p` before the end `e`, whatever tokens are behind it. It is refused for depth,
which happens only without `room`. Or both `p` and `q` fail with one error, about a token up to the
end. Or both read the same, with the same tokens left before the end. -/
inductive Settled (room : Prop) (left : List Token → Prop) (ts : List Token) (e : Token)
    (p q : Parser α) : Prop
  | deep : ¬ room → (∀ us, p.run (ts ++ e :: us) = .error .tooDeep) → Settled room left ts e p q
  | refused {err : ParseError} : err.About (ts ++ [e]) →
      (∀ us, p.run (ts ++ e :: us) = .error err) →
      (∀ us, q.run (ts ++ e :: us) = .error err) → Settled room left ts e p q
  | read {x : α} {rest : List Token} : rest <:+ ts → left rest →
      (∀ us, p.run (ts ++ e :: us) = .ok (x, rest ++ e :: us)) →
      (∀ us, q.run (ts ++ e :: us) = .ok (x, rest ++ e :: us)) → Settled room left ts e p q

/-- Before fewer than `n` tokens and the end, where the next token is as `start` says, `p` settles,
and `q` as `p` does. It takes `k` tokens at least, and is not refused for depth where the depth `d`
has eleven levels for every token and `c` more. -/
def Settles (n d c k : Nat) (start : Token → Prop) (p q : Parser α) : Prop :=
  ∀ (ts : List Token) (e : Token), Ends ts e → ts.length < n → start (ts.headD e) →
    Settled (11 * ts.length + c ≤ d) (fun rest => rest.length + k ≤ ts.length) ts e p q

theorem Outcome.settled {look : Look} {good : List Lexeme → α → Prop} {p q : Parser α}
    (h : Outcome room n k look good ts e p q) (hlen : ts.length < n) :
    Settled room (fun rest => rest.length + k ≤ ts.length) ts e p q := by
  cases h with
  | deep hno hp => exact .deep hno fun us => hp (e :: us) rfl
  | refused habout hp hq =>
    exact .refused habout (fun us => hp (e :: us) rfl) fun us => hq hlen (e :: us) rfl
  | @read x cs rest hts hcs _ hp hq =>
    subst hts
    rw [List.length_append] at hlen
    refine .read (List.suffix_append cs rest) (by rw [List.length_append]; omega)
      (fun us => hp (e :: us) rfl) ?_
    intro us
    rw [List.append_assoc]
    refine hq cs (rest ++ e :: us) rfl (by omega) ?_
    rw [next_from (from_cons e us)]
    exact look.alike_refl _

/-- Every rule with `d` levels and `r` rounds settles, and with more levels and any other rounds in
the same way. A rule that starts with another one at the same token needs a level more than that
one. -/
structure RulesSettle (n r r' d d' : Nat) : Prop where
  statement : Settles n d 11 1 anyToken (statement r d) (statement r' d')
  block : Settles n d 1 1 anyToken (block r d) (block r' d')
  conditional : Settles n d 1 1 anyToken (conditional r d) (conditional r' d')
  function : Settles n d 1 1 anyToken (function r d) (function r' d')
  method (access : Access) (isStatic : Bool) :
    Settles n d 1 1 anyToken (method r d access isStatic) (method r' d' access isStatic)
  classDef : Settles n d 1 1 anyToken (classDef r d) (classDef r' d')
  expression : Settles n d 10 1 anyToken (expression r d) (expression r' d')
  binary (level : Nat) (hlevel : level ≤ BinaryOp.lastLevel) :
    Settles n d (9 - level) 1 anyToken (binary r d level) (binary r' d' level)
  unary : Settles n d 3 1 anyToken (unary r d) (unary r' d')
  primary : Settles n d 2 1 anyToken (primary r d) (primary r' d')

theorem any_grammar (r : Nat) : Grammar (fun _ _ => True) r (fun _ _ => True) fun _ _ => True := by
  constructor <;> intros <;> trivial

section

variable {r r' d' : Nat}

theorem Parses.settles {look : Look} {good : List Lexeme → α → Prop} {p q : Parser α} (hr : n ≤ r)
    (hr' : n ≤ r') (h : Parses (fun _ _ => True) (r + 1) (r' + 1) d c k anyToken look good p q) :
    Settles n d c k anyToken p q :=
  fun ts e hends hlen _ => (h ts e hends trivial (by omega) trivial).settled (by omega)

theorem RulesSettle.all (hr : n ≤ r) (hr' : n ≤ r') (hd : d ≤ d') : RulesSettle n r r' d d' :=
  have rules : Rules (fun _ _ => True) (fun _ _ => True) (fun _ _ => True) r r' d d' :=
    .all (any_grammar r) hd
  { statement := rules.statement.settles hr hr'
    block := rules.block.settles hr hr'
    conditional := rules.conditional.settles hr hr'
    function := rules.function.settles hr hr'
    method := fun access isStatic => (rules.method access isStatic).settles hr hr'
    classDef := rules.classDef.settles hr hr'
    expression := rules.expression.settles hr hr'
    binary := fun level hlevel => (rules.binary level hlevel).settles hr hr'
    unary := rules.unary.settles hr hr'
    primary := rules.primary.settles hr hr' }

/-! ## Whole programs -/

theorem program_settled (h : Ends ts e) (hr : ts.length < r) (hr' : ts.length < r') (hd : d ≤ d') :
    Settled (11 * ts.length + 11 ≤ d) (· = []) ts e (program r d) (program r' d') := by
  obtain ⟨ps, cs, ds, rfl, hcs, hds⟩ := exists_directives ts h.finish
  have hps : ps.length = cs.length := by simpa using (congrArg List.length hcs).symm
  have hends : Ends ds e := h.of_suffix (List.suffix_append cs ds)
  rw [List.length_append] at hr hr' ⊢
  have statement := (Rules.all (any_grammar r) hd : Rules _ _ _ r r' d d').statement
  have items : Parses (fun _ _ => True) r r' d 11 0 anyToken .whole (fun _ _ => True)
      (statementsUntil r .finish (Parser.statement r d))
      (statementsUntil r' .finish (Parser.statement r' d')) :=
    statement.less.itemsUntil.ret _ fun _ _ _ => trivial
  have statements : Parses (fun _ _ => True) r r' d 11 0 anyToken .whole (fun _ _ => True) _ _ :=
    items.ret (Program.mk ps) fun _ _ _ => trivial
  have hrun {s d : Nat} (hs : cs.length + ds.length < s) (us : List Token) :
      (program s d).run (cs ++ ds ++ e :: us) =
        (statementsUntil s .finish (Parser.statement s d) >>= fun
        statements => pure (Program.mk ps statements)).run (ds ++ e :: us) := by
    rw [List.append_assoc, program]
    exact run_bind_eq
      (directives_read (by omega) hcs (by rw [next_from (from_cons e us)]; exact hds))
  cases (statements ds e hends trivial (by omega) trivial).settled (by omega) with
  | deep hno hp => exact .deep (fun hroom => hno (by omega)) fun us => (hrun hr us).trans (hp us)
  | refused habout hp hq =>
    refine .refused (habout.mono ?_) (fun us => (hrun hr us).trans (hp us)) fun us =>
      (hrun hr' us).trans (hq us)
    exact List.append_subset.2 ⟨fun t ht => by simp [ht], by simp⟩
  | @read x rest _ _ hp hq =>
    -- what stops the statements is the end
    obtain ⟨ss, vs, hss, hpure⟩ := run_bind_ok (hp [])
    cases hpure
    obtain ⟨items, ws, hitems, hpure⟩ := run_bind_ok hss
    obtain ⟨-, rfl⟩ := Prod.mk.inj (Except.ok.inj hpure)
    obtain ⟨hrest, -⟩ := items_to_end statement hends trivial (by omega) (by omega)
      (from_cons e []) hitems
    obtain rfl : rest = [] := by simpa using hrest
    exact .read (List.nil_suffix) rfl (fun us => (hrun hr us).trans (hp us)) fun us =>
      (hrun hr' us).trans (hq us)

end

theorem Settled.deep_or_eq {p q : Parser α} (h : Settled room left ts e p q) :
    (¬ room ∧ ∀ us, p.run (ts ++ e :: us) = .error .tooDeep) ∨
      ∀ us, p.run (ts ++ e :: us) = q.run (ts ++ e :: us) := by
  cases h with
  | deep hno hp => exact .inl ⟨hno, hp⟩
  | refused _ hp hq => exact .inr fun us => (hp us).trans (hq us).symm
  | read _ _ hp hq => exact .inr fun us => (hp us).trans (hq us).symm

/-- With depth enough, tokens have an outcome that does not depend on what is behind the end. -/
theorem exists_outcome (h : Ends ts e) : ∃ outcome : Except ParseError Program,
    (∀ err, outcome = .error err → err.About (ts ++ [e])) ∧
    ∀ us, (program (ts.length + 1) (11 * ts.length + 11)).run (ts ++ e :: us) =
      outcome.map (·, e :: us) := by
  have hlen := Nat.lt_succ_self ts.length
  cases program_settled h hlen hlen (Nat.le_refl (11 * ts.length + 11)) with
  | deep hno => exact absurd (Nat.le_refl _) hno
  | @refused err habout hp =>
    refine ⟨.error err, ?_, hp⟩
    rintro _ ⟨⟩
    exact habout
  | @read x rest _ hnil hp =>
    subst hnil
    refine ⟨.ok x, ?_, hp⟩
    rintro _ ⟨⟩

/-- A refusal for depth does not depend on the rounds or on what is behind the end. -/
theorem tooDeep_everywhere (h : Ends ts e) {r r' : Nat} (hr : ts.length < r) (hr' : ts.length < r')
    {us : List Token} (hdeep : (program r d).run (ts ++ e :: us) = .error .tooDeep)
    (us' : List Token) : (program r' d).run (ts ++ e :: us') = .error .tooDeep := by
  cases program_settled h hr' hr (Nat.le_refl d) with
  | deep _ hp => exact hp us'
  | refused habout _ hq =>
    have herr := (hq us).symm.trans hdeep
    exact absurd (Except.error.inj herr) habout.ne_tooDeep
  | read _ _ _ hq =>
    have hread := (hq us).symm.trans hdeep
    contradiction

/-- Parsing stops at the end of the source. Every rule takes a token or fails, wherever it starts,
and never gets past the end. So tokens up to the end have one outcome, which is a program, with all
of them taken and the end left, or a syntax error about one of them. They have it whatever tokens
are behind the end, whatever number of rounds exceeds their own number, and with any depth that is
not below the one they need; with less they are refused for depth. -/
theorem parsing_stops_at_the_end (h : Ends ts e) :
    (∀ r d, RulesSettle r r r d d) ∧
    ∃ (need : Nat) (outcome : Except ParseError Program), need ≤ 11 * ts.length + 11 ∧
      (∀ err, outcome = .error err → err.kind = .syntaxFault ∧ err.About (ts ++ [e])) ∧
      (∀ r d us, ts.length < r → (program r d).run (ts ++ e :: us) =
        if need ≤ d then outcome.map (·, e :: us) else .error .tooDeep) ∧
      Program.parse (ts ++ [e]) =
        if need ≤ Program.nestingLimit then outcome else .error .tooDeep := by
  refine ⟨fun r d => .all (Nat.le_refl r) (Nat.le_refl r) (Nat.le_refl d), ?_⟩
  obtain ⟨outcome, habout, hfull⟩ := exists_outcome h
  have hlen := Nat.lt_succ_self ts.length
  have hfits : (program (ts.length + 1) (11 * ts.length + 11)).run (ts ++ [e]) ≠
      .error .tooDeep := by
    rw [hfull []]
    cases outcome with
    | ok x => nofun
    | error err => exact fun herr => (habout err rfl).ne_tooDeep (Except.error.inj herr)
  -- the tokens need the least depth at which they are not refused for it
  have hsome : ∃ d, (program (ts.length + 1) d).run (ts ++ [e]) ≠ .error .tooDeep := ⟨_, hfits⟩
  classical
  have hneed := Nat.find_spec hsome
  have hle := Nat.find_min' hsome hfits
  have hrun (r d : Nat) (us : List Token) (hr : ts.length < r) : (program r d).run (ts ++ e :: us) =
      if Nat.find hsome ≤ d then outcome.map (·, e :: us) else .error .tooDeep := by
    split
    · next hd =>
      rcases (program_settled h hlen hr hd).deep_or_eq with ⟨-, hdeep⟩ | heq
      · exact absurd (hdeep []) hneed
      rcases (program_settled h hlen hlen hle).deep_or_eq with ⟨-, hdeep⟩ | heq'
      · exact absurd (hdeep []) hneed
      rw [← heq us, heq' us, hfull us]
    · next hd =>
      have hdeep := not_not.1 (Nat.find_min hsome (Nat.lt_of_not_le hd))
      exact tooDeep_everywhere h hlen hr hdeep us
  refine ⟨Nat.find hsome, outcome, hle, fun err herr => ⟨(habout err herr).kind, habout err herr⟩,
    hrun, ?_⟩
  have hparse := hrun (ts ++ [e]).length Program.nestingLimit [] (by simp)
  unfold Program.parse
  rw [hparse]
  split
  · cases outcome <;> rfl
  · rfl

/-- A call that the source ends in. -/
def openCall : List Token :=
  [⟨.name "f", 1, 1⟩, ⟨.symbol .lparen, 1, 2⟩, ⟨.whole 1, 1, 3⟩, ⟨.symbol .comma, 1, 4⟩]

theorem openCall_refused : Ends openCall ⟨.finish, 1, 5⟩ ∧
    ∀ r d us, 4 < r → 980 ≤ d →
      (program r d).run (openCall ++ ⟨.finish, 1, 5⟩ :: us) = .error (.unexpected .finish 1 5) := by
  have hends : Ends openCall ⟨.finish, 1, 5⟩ := ⟨by decide, rfl⟩
  obtain ⟨-, need, outcome, -, -, hrun, hparse⟩ := parsing_stops_at_the_end hends
  have herror : Program.parse (openCall ++ [⟨.finish, 1, 5⟩]) = .error (.unexpected .finish 1 5) :=
    rfl
  rw [herror] at hparse
  split at hparse
  · next hneed =>
    refine ⟨hends, fun r d us hr hd => ?_⟩
    rw [hrun r d us hr, if_pos (Nat.le_trans hneed hd), ← hparse]
    rfl
  · cases Except.error.inj hparse

/-! ## Refusals for depth -/

theorem unary_signs_tooDeep {m : Nat} (hd : d ≤ m) (r : Nat) (us : List Token) :
    (unary r d).run (List.replicate m ⟨.symbol .minus, 1, 1⟩ ++ us) = .error .tooDeep := by
  induction d generalizing m with
  | zero => rfl
  | succ d ih =>
    obtain ⟨m, rfl⟩ := Nat.exists_eq_add_of_le' (Nat.one_le_of_lt hd)
    rw [unary, List.replicate_succ]
    exact run_bind_error (g := fun operand => pure (Expr.unary .neg operand))
      (ih (Nat.le_of_succ_le_succ hd))

theorem binary_tooDeep {r level : Nat} {us : List Token} (hlevel : level ≤ BinaryOp.lastLevel)
    (h : ∀ d' ≤ d, (unary r d').run us = .error .tooDeep) :
    (binary r d level).run us = .error .tooDeep := by
  induction d generalizing level with
  | zero => rfl
  | succ d ih =>
    rw [binary]
    refine run_bind_error ?_
    split
    · next hlt => exact ih hlt fun d' hd => h d' (Nat.le_succ_of_le hd)
    · exact h d (Nat.le_succ d)

theorem statement_signs_tooDeep {m : Nat} (hd : d ≤ m) (r : Nat) (us : List Token) :
    (statement r d).run (List.replicate m ⟨.symbol .minus, 1, 1⟩ ++ us) = .error .tooDeep := by
  match d, m with
  | 0, _ => rfl
  | 1, _ + 1 => rfl
  | d + 2, m + 1 =>
    have hexpression :
        (expression r (d + 1)).run (List.replicate (m + 1) ⟨.symbol .minus, 1, 1⟩ ++ us) =
        .error .tooDeep := by
      rw [expression]
      exact run_bind_error (binary_tooDeep (Nat.zero_le _) fun d' hd' =>
        unary_signs_tooDeep (by omega) r us)
    rw [statement]
    exact run_bind_error (g := fun e => symbol .semicolon >>= fun _ => pure (some (Stmt.expr e)))
      hexpression

theorem signs_tooDeep {m : Nat} (hm : Program.nestingLimit ≤ m) (e : Token) :
    Program.parse (List.replicate m ⟨.symbol .minus, 1, 1⟩ ++ [e]) = .error .tooDeep := by
  obtain ⟨m, rfl⟩ :=
    Nat.exists_eq_add_of_le' (Nat.le_trans (by decide : 1 ≤ Program.nestingLimit) hm)
  have hincludes : (directives (m + 2)).run (List.replicate (m + 1) ⟨.symbol .minus, 1, 1⟩ ++ [e]) =
      .ok ([], List.replicate (m + 1) ⟨.symbol .minus, 1, 1⟩ ++ [e]) := rfl
  have hitems : (itemsUntil .finish (statement (m + 2) Program.nestingLimit) (m + 2)).run
      (List.replicate (m + 1) ⟨.symbol .minus, 1, 1⟩ ++ [e]) = .error .tooDeep := by
    rw [itemsUntil]
    exact run_bind_error (g := fun x => itemsUntil .finish (statement (m + 2) Program.nestingLimit)
      (m + 1) >>= fun xs => pure (x :: xs)) (statement_signs_tooDeep hm (m + 2) [e])
  have hlength : (List.replicate (m + 1) (⟨.symbol .minus, 1, 1⟩ : Token) ++ [e]).length =
      m + 2 := by simp
  have hstatements : (statementsUntil (m + 2) .finish (statement (m + 2) Program.nestingLimit)).run
      (List.replicate (m + 1) ⟨.symbol .minus, 1, 1⟩ ++ [e]) = .error .tooDeep :=
      run_bind_error hitems
  rw [Program.parse, hlength, program, run_bind_eq hincludes, run_bind_error hstatements]
  rfl

/-- Tokens up to the end that are neither a program nor refused as a syntax error: a thousand signs
in a row. -/
theorem thousandSigns_tooDeep :
    Ends (List.replicate 1000 ⟨.symbol .minus, 1, 1⟩) ⟨.finish, 1, 1001⟩ ∧
    Program.parse (List.replicate 1000 ⟨.symbol .minus, 1, 1⟩ ++ [⟨.finish, 1, 1001⟩]) =
      .error .tooDeep ∧
    ParseError.kind .tooDeep ≠ .syntaxFault := by
  refine ⟨⟨fun t ht => ?_, rfl⟩, signs_tooDeep (by decide) _, nofun⟩
  obtain rfl := List.eq_of_mem_replicate ht
  nofun

end Parser

end ScriptLang
