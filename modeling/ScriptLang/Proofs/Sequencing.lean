import ScriptLang.Proofs.ProgramParts

/-!
# Programs in a row

A statement is read alike wherever its lexemes stand. It ends in a symbol of its own, and the only
lexeme that could join it is `else`, with which no statement starts. So the tokens of two programs
in a row are read as the statements of the first and then those of the second (`parse_append`).
-/

namespace ScriptLang.Parser

variable {α : Type} {ls ms : List Lexeme} {ts us vs : List Token} {e : Token} {p : Program}
  {m d : Nat}

/-! ## The first and the last lexeme -/

/-- The first lexeme is not `else`. -/
def Starts (ls : List Lexeme) : Prop :=
  ∃ l ∈ ls.head?, l ≠ .keyword .elseWord

/-- The last lexeme closes a statement. -/
def Closes (ls : List Lexeme) : Prop :=
  ls.getLast? = some (.symbol .rbrace) ∨ ls.getLast? = some (.symbol .semicolon)

theorem Starts.append (h : Starts ls) (ms : List Lexeme) : Starts (ls ++ ms) := by
  cases ls with
  | nil => exact absurd h (by simp [Starts])
  | cons l ls => exact h

theorem Closes.append (ls : List Lexeme) (h : Closes ms) : Closes (ls ++ ms) := by
  unfold Closes at h ⊢
  rcases h with h | h <;> simp [List.getLast?_append, h]

theorem Closes.cons (l : Lexeme) (h : Closes ms) : Closes (l :: ms) :=
  h.append [l]

theorem closes_of_body {Q : List Lexeme → Stmt → Prop} {body : List Stmt} (h : Body Q ls body) :
    Closes ls := by
  obtain ⟨ms, os, rfl, -, -⟩ := h
  exact .inl (by simp [List.getLast?_cons, List.getLast?_append])

theorem edges_grammar (r : Nat) : Grammar (fun _ _ => True) r (fun ls _ => Starts ls)
    (fun ls _ => Starts ls ∧ Closes ls) where
  literal v := by cases v with
    | bool b => cases b <;> exact ⟨_, rfl, nofun⟩
    | _ => exact ⟨_, rfl, nofun⟩
  name _ := ⟨_, rfl, nofun⟩
  this := ⟨_, rfl, nofun⟩
  inParens _ := ⟨_, rfl, nofun⟩
  array _ := ⟨_, rfl, nofun⟩
  object _ _ := ⟨_, rfl, nofun⟩
  function _ _ _ := ⟨_, rfl, nofun⟩
  call hf _ := hf.append _
  member ho := ho.append _
  index ha _ := ha.append _
  unary _ := ⟨_, rfl, nofun⟩
  binary hl _ := hl.append _
  assign hx _ := hx.append _
  assignIndex ht _ := ht.append _
  assignMember ht _ := ht.append _
  new _ := ⟨_, rfl, nofun⟩
  expr he := ⟨he.append _, .append _ (.inr rfl)⟩
  block hbody := by
    refine ⟨?_, closes_of_body hbody⟩
    obtain ⟨ms, os, rfl, -, -⟩ := hbody
    exact ⟨_, rfl, nofun⟩
  cond {_ _ e _ _ ns} _ ht he := by
    refine ⟨⟨_, rfl, nofun⟩, .cons _ (.cons _ (.append _ (.cons _ ?_)))⟩
    cases e with
    | none =>
      obtain rfl : ns = [] := he
      exact (List.append_nil _).symm ▸ closes_of_body ht
    | some body =>
      obtain ⟨ms, rfl, hbody | ⟨s, -, hs⟩⟩ := he
      · exact .append _ (.cons _ (closes_of_body hbody))
      · exact .append _ (.cons _ hs.2)
  whileLoop _ hbody :=
    ⟨⟨_, rfl, nofun⟩, .cons _ (.cons _ (.append _ (.cons _ (closes_of_body hbody))))⟩
  doLoop _ _ := ⟨⟨_, rfl, nofun⟩, .cons _ (.append _ (.cons _ (.cons _ (.append _ (.inr rfl)))))⟩
  forLoop _ _ _ hbody :=
    ⟨⟨_, rfl, nofun⟩, .cons _ (.cons _ (.append _ (.cons _ (.append _ (.cons _ (.append _
    (.cons _ (closes_of_body hbody))))))))⟩
  breakOut := ⟨⟨_, rfl, nofun⟩, .inr rfl⟩
  continueOn := ⟨⟨_, rfl, nofun⟩, .inr rfl⟩
  returnBack _ := ⟨⟨_, rfl, nofun⟩, .cons _ (.append _ (.inr rfl))⟩
  classDef _ _ _ _ hlast := ⟨⟨_, rfl, nofun⟩, .cons _ (.inl hlast)⟩

/-- The statements of a program start and end as one statement does. -/
theorem edges_of_each {items : List (Option Stmt)}
    (h : Each (OrEmpty fun ls _ => Starts ls ∧ Closes ls) ls items) :
    ls = [] ∨ Starts ls ∧ Closes ls := by
  induction items generalizing ls with
  | nil => exact .inl h
  | cons o items ih =>
    obtain ⟨ms, ns, rfl, ho, hrest⟩ := h
    have hedges : Starts ms ∧ Closes ms := by
      cases o with
      | none => exact ho ▸ ⟨⟨_, rfl, nofun⟩, .inr rfl⟩
      | some s => exact ho
    rcases ih hrest with rfl | hns
    · exact .inr ((List.append_nil ms).symm ▸ hedges)
    · exact .inr ⟨hedges.1.append ns, hns.2.append ms⟩

/-! ## Statements elsewhere -/

variable {item : Parser α} {good : List Lexeme → α → Prop} {xs ys : List α}

theorem Row.length_le {n' : Nat} {look : Look} (h : Row n' look good item e ts xs) :
    xs.length ≤ ts.length := by
  induction h with
  | nil => exact Nat.le_refl 0
  | cons hne _ _ _ ih =>
    have := List.length_pos_iff.2 hne
    rw [List.length_cons, List.length_append]
    omega

/-- Where the lexemes of a row stand, its items are read, and then what comes after them, which must
not start with `else`. -/
theorem Row.run (h : Row (m + 1) .elseWord good item e ts xs) (hends : Ends ts e)
    {cs us : List Token} (hcs : cs.map (·.lexeme) = ts.map (·.lexeme)) (hlen : cs.length ≤ m)
    (hnext : next us ≠ .keyword .elseWord) {k : Nat}
    (hrest : (itemsUntil .finish item k).run us = .ok (ys, vs)) :
    (itemsUntil .finish item (xs.length + k)).run (cs ++ us) = .ok (xs ++ ys, vs) := by
  induction h generalizing cs with
  | nil =>
    obtain rfl := List.map_eq_nil_iff.1 hcs
    rw [List.length_nil, Nat.zero_add]
    exact hrest
  | @cons ds rest x xs hne _ hread _ ih =>
    rw [List.map_append] at hcs
    obtain ⟨cs₁, cs₂, rfl, hcs₁, hcs₂⟩ := List.map_eq_append_iff.1 hcs
    rw [List.length_append] at hlen
    have hfirst : (next (cs₁ ++ cs₂ ++ us)).kind ≠ .finish := by
      obtain ⟨t, ds, rfl⟩ := List.exists_cons_of_ne_nil hne
      obtain ⟨t', cs₁, rfl, ht, -⟩ := List.map_eq_cons_iff.1 hcs₁
      show t'.lexeme.kind ≠ .finish
      rw [ht]
      exact hends.inside t List.mem_cons_self
    have halike : Look.elseWord.alike (rest.headD e).lexeme (next (cs₂ ++ us)) := by
      cases rest with
      | nil =>
        obtain rfl := List.map_eq_nil_iff.1 hcs₂
        have he : e.lexeme = .finish := Lexeme.kind_eq_finish.1 hends.finish
        show e.lexeme.kind = _ ↔ _
        rw [he]
        exact ⟨nofun, fun h => absurd (Lexeme.kind_eq_keyword.1 h) hnext⟩
      | cons t rest =>
        obtain ⟨t', cs₂, rfl, ht, -⟩ := List.map_eq_cons_iff.1 hcs₂
        show Look.elseWord.alike t.lexeme t'.lexeme
        rw [ht]
        exact Look.elseWord.alike_refl _
    have htail := ih (hends.of_suffix (List.suffix_append ds rest)) hcs₂ (by omega)
    rw [List.length_cons, Nat.succ_add, itemsUntil, run_sees (decide_eq_false hfirst),
      if_neg Bool.false_ne_true, List.append_assoc,
      run_bind_eq (hread cs₁ _ hcs₁ (by omega) halike), run_bind_eq htail]
    rfl

/-- What is parsed are the directives and the statements of all lexemes before the end. -/
theorem parts_of_parse (hts : ts.map (·.lexeme) = ls ++ [.finish]) (hls : Lexeme.finish ∉ ls)
    (hparse : Program.parse ts = .ok p) (m : Nat) :
      ∃ ds e items, ls = p.includes.map .includes ++ ds.map (·.lexeme) ∧
      Ends ds e ∧ (ds.headD e).kind ≠ .includes ∧ p.statements = items.filterMap id ∧
      Row (m + 1) .elseWord (OrEmpty fun ls _ => Starts ls ∧ Closes ls)
        (statement m Program.nestingLimit) e ds items := by
  obtain ⟨ts, us, rfl, rfl, hus⟩ := List.map_eq_append_iff.1 hts
  obtain ⟨e, rfl, he⟩ := List.map_eq_singleton_iff.1 hus
  have hends : Ends ts e := by
    refine ⟨fun t ht hkind => hls ?_, by rw [Token.kind, he]; rfl⟩
    rw [← Lexeme.kind_eq_finish.1 hkind]
    exact List.mem_map_of_mem ht
  obtain ⟨cs, ds, items, rfl, hcs, hds, hrow, hp⟩ :=
    exists_row_of_parse (edges_grammar _) hends (from_cons e []) trivial (Nat.le_refl _) hparse m
  refine ⟨ds, e, items, ?_, hends.of_suffix (List.suffix_append cs ds), hds, hp, hrow⟩
  rw [List.map_append, hcs]

theorem next_append (ts us : List Token) :
    next (ts ++ us) = (ts.map (·.lexeme)).headD (next us) := by
  cases ts <;> rfl

/-- The tokens of two programs in a row, the second without directives, are those of one program. -/
theorem parse_append {q : Program} (hts : ts.map (·.lexeme) = ls ++ [.finish])
    (hls : Lexeme.finish ∉ ls) (hus : us.map (·.lexeme) = ms ++ [.finish])
    (hms : Lexeme.finish ∉ ms) (hvs : vs.map (·.lexeme) = ls ++ ms ++ [.finish])
    (hp : Program.parse ts = .ok p) (hq : Program.parse us = .ok q) (hincludes : q.includes = []) :
    Program.parse vs = .ok ⟨p.includes, p.statements ++ q.statements⟩ := by
  obtain ⟨ds, e, xs, rfl, hends, hds, hxs, hrow⟩ := parts_of_parse hts hls hp vs.length
  obtain ⟨ds', e', ys, rfl, hends', hds', hys, hrow'⟩ := parts_of_parse hus hms hq vs.length
  rw [hincludes, List.map_nil, List.nil_append, List.append_assoc (_ ++ _)] at hvs
  obtain ⟨vs₁, vs₂, rfl, hvs₁, hvs₂⟩ := List.map_eq_append_iff.1 hvs
  obtain ⟨cs, as, rfl, hcs, has⟩ := List.map_eq_append_iff.1 hvs₁
  obtain ⟨bs, ends, rfl, hbs, hend⟩ := List.map_eq_append_iff.1 hvs₂
  obtain ⟨t, rfl, ht⟩ := List.map_eq_singleton_iff.1 hend
  have hfinish : next [t] = .finish := ht
  have hps : p.includes.length = cs.length := by simpa using (congrArg List.length hcs).symm
  have hlen := length_of_lexemes has
  have hlen' := length_of_lexemes hbs
  have hle := hrow.length_le
  have hle' := hrow'.length_le
  have hnext : (next (as ++ (bs ++ [t]))).kind ≠ .includes := by
    rw [next_append, next_append, has, hbs, hfinish]
    cases ds with
    | nil =>
      cases ds' with
      | nil => nofun
      | cons t' ds' => exact hds'
    | cons t ds => exact hds
  have helse : next (bs ++ [t]) ≠ .keyword .elseWord := by
    rw [next_append, hbs, hfinish]
    rcases edges_of_each hrow'.each with hnil | ⟨⟨l, hl, hne⟩, -⟩
    · rw [hnil]
      nofun
    · obtain ⟨ls, hls⟩ := List.head?_eq_some_iff.1 hl
      rwa [hls]
  have hvlen : (cs ++ as ++ (bs ++ [t])).length = cs.length + as.length + bs.length + 1 := by
    simp; omega
  unfold Program.parse program
  generalize (cs ++ as ++ (bs ++ [t])).length = n at hrow hrow' hvlen ⊢
  obtain ⟨k, hk⟩ : ∃ k, n = xs.length + (ys.length + (k + 1)) :=
    ⟨n - xs.length - ys.length - 1, by omega⟩
  have hstop : (itemsUntil .finish (statement n Program.nestingLimit) (k + 1)).run [t] =
      .ok ([], [t]) :=
    run_sees (decide_eq_true (by rw [hfinish]; rfl))
  have hsecond := hrow'.run hends' hbs (by omega) (by rw [hfinish]; nofun) hstop
  have hboth := hrow.run hends has (by omega) helse hsecond
  rw [← hk, List.append_nil] at hboth
  have hdirectives := directives_read (n := n) (by omega) hcs hnext
  have hstatements : (statementsUntil n .finish (statement n Program.nestingLimit)).run
      (as ++ (bs ++ [t])) = .ok (p.statements ++ q.statements, [t]) := by
    rw [statementsUntil, run_bind_eq hboth, hxs, hys, ← List.filterMap_append]
    rfl
  rw [List.append_assoc, run_bind_eq hdirectives, run_bind_eq hstatements]
  rfl

end ScriptLang.Parser
