import ScriptLang.Proofs.GrammarRules

/-!
# The parts of a program

The tokens before the end of a source are include directives and then statements. Every statement
takes tokens, and the end stops them, so that a program that is parsed is made of all tokens before
the end (`exists_row_of_parse`).
-/

namespace ScriptLang.Parser

variable {α β : Type} {ts us vs cs : List Token} {e : Token} {r m n n' j d d' c : Nat} {look : Look}
  {I : Token → List Token → Prop} {P : List Lexeme → Expr → Prop} {Q : List Lexeme → Stmt → Prop}
  {good : List Lexeme → α → Prop} {item item' : Parser α} {p : Program}

theorem run_bind_ok {p : Parser β} {g : β → Parser α} {y : α} (h : (p >>= g).run ts = .ok (y, us)) :
    ∃ x vs, p.run ts = .ok (x, vs) ∧ (g x).run vs = .ok (y, us) := by
  rw [StateT.run_bind] at h
  cases hp : p.run ts with
  | error e =>
    rw [hp] at h
    contradiction
  | ok r =>
    rw [hp] at h
    exact ⟨r.1, r.2, rfl, h⟩

theorem run_sees {k : Kind} {b : Bool} {g : Bool → Parser α}
    (hb : decide ((next ts).kind = k) = b) : (sees k >>= g).run ts = (g b).run ts := by
  subst hb
  rfl

/-- Tokens are those before the end and those from it on. -/
theorem exists_ends (tokens : List Token) :
    ∃ ts us e, tokens = ts ++ us ∧ Ends ts e ∧ From e us := by
  induction tokens with
  | nil => exact ⟨[], [], ⟨.finish, 1, 1⟩, rfl, ⟨nofun, rfl⟩, rfl⟩
  | cons t tokens ih =>
    by_cases ht : t.kind = .finish
    · exact ⟨[], t :: tokens, t, rfl, ⟨nofun, ht⟩, rfl⟩
    · obtain ⟨ts, us, e, rfl, hends, hus⟩ := ih
      exact ⟨t :: ts, us, e, rfl, ⟨List.forall_mem_cons.2 ⟨ht, hends.inside⟩, hends.finish⟩, hus⟩

/-! ## Directives -/

theorem exists_directives (ts : List Token) (he : e.kind = .finish) :
    ∃ (ps : List String) (cs ds : List Token), ts = cs ++ ds ∧
      cs.map (·.lexeme) = ps.map .includes ∧
      (ds.headD e).kind ≠ .includes := by
  induction ts with
  | nil => exact ⟨[], [], [], rfl, rfl, fun h => nomatch he.symm.trans h⟩
  | cons t ts ih =>
    obtain ⟨ps, cs, ds, rfl, hcs, hds⟩ := ih
    cases hl : t.lexeme with
    | includes p =>
      exact ⟨p :: ps, t :: cs, ds, rfl, by rw [List.map_cons, hl, hcs, List.map_cons], hds⟩
    | _ => exact ⟨[], [], t :: (cs ++ ds), rfl, rfl, by simp [Token.kind, hl, Lexeme.kind]⟩

theorem directives_read {ps : List String} (hn : ps.length ≤ n)
    (hcs : cs.map (·.lexeme) = ps.map .includes) (hnext : (next us).kind ≠ .includes) :
    (directives n).run (cs ++ us) = .ok (ps, us) := by
  induction ps generalizing n cs with
  | nil =>
    obtain rfl := List.map_eq_nil_iff.1 hcs
    cases n with
    | zero => rfl
    | succ n => exact run_sees (decide_eq_false hnext)
  | cons p ps ih =>
    obtain ⟨n, rfl⟩ := Nat.exists_eq_add_of_le' (Nat.one_le_of_lt hn)
    obtain ⟨t, cs, rfl, ht, hcs⟩ := List.map_eq_cons_iff.1 hcs
    have hkind : (next (t :: cs ++ us)).kind = .includes := congrArg Lexeme.kind ht
    have hexpect : (expect .includes).run (t :: cs ++ us) = .ok (t, cs ++ us) := by
      show (if t.kind = .includes then _ else _ : Parser Token).run _ = _
      rw [if_pos (show t.kind = .includes from hkind)]
      rfl
    have hfirst : directive.run (t :: cs ++ us) = .ok (p, cs ++ us) := by
      rw [directive, run_bind_eq hexpect, ht]
      rfl
    rw [directives, run_sees (decide_eq_true hkind), if_pos rfl, run_bind_eq hfirst,
      run_bind_eq (ih (Nat.le_of_succ_le_succ hn) hcs)]
    rfl

/-! ## Statements -/

/-- Items that have been read from the tokens `ts` before the end `e`, and are read wherever their
lexemes stand. -/
inductive Row (n' : Nat) (look : Look) (good : List Lexeme → α → Prop) (item' : Parser α)
    (e : Token) : List Token → List α → Prop
  | nil : Row n' look good item' e [] []
  | cons {cs rest : List Token} {x : α} {xs : List α} : cs ≠ [] → good (cs.map (·.lexeme)) x →
      Rereads n' look cs (rest.headD e).lexeme x item' → Row n' look good item' e rest xs →
      Row n' look good item' e (cs ++ rest) (x :: xs)

theorem Row.each {xs : List α} (h : Row n' look good item' e ts xs) :
    Each good (ts.map (·.lexeme)) xs := by
  induction h with
  | nil => rfl
  | cons _ hx _ _ ih => exact ⟨_, _, List.map_append, hx, ih⟩

/-- Each item takes a token, so that rounds are left for all of them, and the end stops them. -/
theorem items_to_end [Hereditary I] (hitem : Parses I n n' d c 1 anyToken look good item item')
    (hends : Ends ts e) (hI : I e ts) (hn : ts.length < n) (hj : ts.length ≤ j) (hus : From e us)
    {xs : List α} (hrun : (itemsUntil .finish item j).run (ts ++ us) = .ok (xs, vs)) :
    vs = us ∧ Row n' look good item' e ts xs := by
  induction j generalizing ts xs with
  | zero =>
    obtain rfl := List.length_eq_zero_iff.1 (Nat.le_zero.1 hj)
    cases hrun
    exact ⟨rfl, .nil⟩
  | succ j ih =>
    have hnext := next_from hus ts
    rw [itemsUntil] at hrun
    cases ts with
    | nil =>
      rw [run_sees (decide_eq_true (by rw [hnext]; exact hends.finish))] at hrun
      cases hrun
      exact ⟨rfl, .nil⟩
    | cons t ts =>
      have ht : t.kind ≠ .finish := hends.inside t List.mem_cons_self
      rw [run_sees (decide_eq_false (by rw [hnext]; exact ht)), if_neg Bool.false_ne_true] at hrun
      obtain ⟨x, ws, hx, hrun⟩ := run_bind_ok hrun
      obtain ⟨xs, ws', hxs, hpure⟩ := run_bind_ok hrun
      cases hpure
      cases hitem _ e hends hI hn trivial with
      | deep _ hp => cases hx.symm.trans (hp us hus)
      | refused _ hp => cases hx.symm.trans (hp us hus)
      | @read x' cs rest hts hcs hgood hp hq =>
        cases hx.symm.trans (hp us hus)
        have hrest : rest <:+ t :: ts := ⟨cs, hts.symm⟩
        rw [hts, List.length_append] at hn hj
        obtain ⟨rfl, hrow⟩ := ih (hends.of_suffix hrest) (Hereditary.of_suffix hI hrest) (by omega)
          (by omega) hxs
        rw [hts]
        exact ⟨rfl, .cons (List.ne_nil_of_length_pos hcs) hgood hq hrow⟩

/-- What is parsed are the directives and the statements before the end. -/
theorem exists_row_of_parse [Hereditary I] (hc : Grammar I (ts ++ us).length P Q)
    (hends : Ends ts e) (hus : From e us) (hI : I e ts) (hd : Program.nestingLimit ≤ d')
    (hparse : Program.parse (ts ++ us) = .ok p) (m : Nat) :
    ∃ cs ds items, ts = cs ++ ds ∧ cs.map (·.lexeme) = p.includes.map .includes ∧
      (ds.headD e).kind ≠ .includes ∧
      Row (m + 1) .elseWord (OrEmpty Q) (statement m d') e ds items ∧
      p.statements = items.filterMap id := by
  obtain ⟨ps, cs, ds, rfl, hcs, hds⟩ := exists_directives ts hends.finish
  have hps : ps.length = cs.length := by simpa using (congrArg List.length hcs).symm
  have hlen : cs.length + ds.length ≤ (cs ++ ds ++ us).length := by simp
  unfold Program.parse at hparse
  generalize (cs ++ ds ++ us).length = n at hc hparse hlen
  cases hprogram : (program n Program.nestingLimit).run (cs ++ ds ++ us) with
  | error err =>
    rw [hprogram] at hparse
    contradiction
  | ok result =>
    rw [hprogram] at hparse
    obtain ⟨p', rest⟩ := result
    obtain rfl : p' = p := Except.ok.inj hparse
    obtain ⟨includes, vs, hdirectives, hrun⟩ := run_bind_ok hprogram
    rw [List.append_assoc cs ds us, directives_read (by omega) hcs
      (by rw [next_from hus]; exact hds)] at hdirectives
    cases hdirectives
    obtain ⟨statements, ws, hstatements, hpure⟩ := run_bind_ok hrun
    cases hpure
    obtain ⟨items, ws, hitems, hpure⟩ := run_bind_ok hstatements
    cases hpure
    have hsuffix : ds <:+ cs ++ ds := List.suffix_append cs ds
    obtain ⟨-, hrow⟩ := items_to_end (Rules.all hc hd).statement (hends.of_suffix hsuffix)
      (Hereditary.of_suffix hI hsuffix) (by omega) (by omega) hus hitems
    exact ⟨cs, ds, items, rfl, hcs, hds, hrow, rfl⟩

end ScriptLang.Parser
