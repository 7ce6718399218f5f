import ScriptLang.Proofs.Words
import ScriptLang.Proofs.Sequencing
import ScriptLang.Session

/-!
# Sources in a row

A source that is followed by a line end and another source is read as before, unless it ends inside
a comment in brackets or an include directive that the other source would go on with: every round of
the scanner stops at the line end at the latest. Together with what the parser does, this makes two
sources in a row one program, and running it is running the first source and then the second.
-/

namespace ScriptLang

open ScriptLang.Text ScriptLang.Number ScriptLang.Action

variable {c : Char} {cs : List Char} {piece : Piece}

/-- The source ends inside a comment in brackets or inside an include directive. -/
inductive EndsInside : List Char → Prop
  | comment {body : List Char} : ¬ ['*', '/'] <:+: body → EndsInside ('/' :: '*' :: body)
  | directive {word gap package : List Char} : directiveWord <+: word →
      (∀ c ∈ word, isBlank c = false) → gap ≠ [] → (∀ c ∈ gap, isLayout c = true) → '>' ∉ package →
      EndsInside (word ++ (gap ++ '<' :: package))
  | layout {c : Char} {cs : List Char} : isLayout c = true → EndsInside cs → EndsInside (c :: cs)
  | afterComment {cs comment rest : List Char} :
      splitComment cs = some (comment, rest) → EndsInside rest → EndsInside cs
  | afterLexeme {c : Char} {cs : List Char} {piece : Piece} :
      isLayout c = false → splitComment (c :: cs) = none →
      (∀ p, readLexeme p (c :: cs) = .ok piece) → EndsInside piece.rest → EndsInside (c :: cs)

theorem EndsInside.of_lexeme (h : EndsInside (c :: cs))
    (hc : isLayout c = false) (hcomment : splitComment (c :: cs) = none)
    (hword : directiveWord.isPrefixOf (c :: cs) = false)
    (hread : readLexeme {} (c :: cs) = .ok piece) : EndsInside piece.rest := by
  generalize hcs : c :: cs = whole at h hcomment hword hread
  cases h with
  | comment => contradiction
  | @directive word gap package hstart =>
    obtain ⟨tail, rfl⟩ := hstart
    rw [List.append_assoc, List.isPrefixOf_iff_prefix.2 (List.prefix_append _ _)] at hword
    contradiction
  | layout hlayout =>
    cases hcs
    rw [hc] at hlayout
    contradiction
  | afterComment hsome =>
    rw [hcomment] at hsome
    contradiction
  | afterLexeme _ _ hread' h =>
    obtain rfl := Except.ok.inj ((hread' {}).symm.trans hread)
    exact h

theorem EndsInside.of_line {comment rest : List Char} (h : EndsInside (c :: c :: cs))
    (hcomment : splitComment (c :: c :: cs) = some (comment, rest)) : EndsInside rest := by
  generalize hcs : c :: c :: cs = whole at h hcomment
  cases h with
  | comment =>
    obtain ⟨rfl, h⟩ := List.cons.inj hcs
    exact absurd (List.cons.inj h).1 (by decide)
  | directive hstart _ _ _ _ =>
    obtain ⟨tail, rfl⟩ := hstart
    rw [directiveWord_eq] at hcs
    obtain ⟨rfl, h⟩ := List.cons.inj hcs
    exact absurd (List.cons.inj h).1 (by decide)
  | layout hlayout _ =>
    cases hcs
    rw [isLayout_of_splitComment hcomment] at hlayout
    contradiction
  | afterComment hsome h =>
    obtain ⟨-, rfl⟩ := Prod.mk.inj (Option.some.inj (hsome.symm.trans hcomment))
    exact h
  | afterLexeme _ hnone _ _ =>
    rw [hcomment] at hnone
    contradiction

theorem EndsInside.not_nil : ¬ EndsInside [] := by
  intro h
  generalize hcs : ([] : List Char) = whole at h
  cases h with
  | comment => contradiction
  | directive _ _ _ _ _ => simp at hcs
  | layout => contradiction
  | afterComment h _ => subst hcs; contradiction
  | afterLexeme => contradiction

/-! ## Rounds that stop at a line end -/

/-- A run of characters of a class is the same with more characters behind, unless they go on with
it. -/
theorem span_append {p : Char → Bool} {x : List Char}
    (h : cs.dropWhile p = [] → x.takeWhile p = []) :
    (cs ++ x).takeWhile p = cs.takeWhile p ∧ (cs ++ x).dropWhile p = cs.dropWhile p ++ x := by
  induction cs with
  | nil =>
    have htake := h rfl
    have hsplit := List.takeWhile_append_dropWhile (p := p) (l := x)
    rw [htake, List.nil_append] at hsplit
    exact ⟨htake, hsplit⟩
  | cons c cs ih =>
    rw [List.cons_append]
    cases hc : p c with
    | true =>
      rw [List.dropWhile_cons_of_pos hc] at h
      rw [List.takeWhile_cons_of_pos hc, List.dropWhile_cons_of_pos hc,
        List.takeWhile_cons_of_pos hc, List.dropWhile_cons_of_pos hc, (ih h).1, (ih h).2]
      exact ⟨rfl, rfl⟩
    | false =>
      have hc' : ¬ p c = true := by simp [hc]
      rw [List.takeWhile_cons_of_neg hc', List.dropWhile_cons_of_neg hc',
        List.takeWhile_cons_of_neg hc', List.dropWhile_cons_of_neg hc']
      exact ⟨rfl, rfl⟩

section

variable (x : List Char)

/-- A run of characters of a class without the line end stops at it. -/
theorem span_line {p : Char → Bool} (hp : p '\n' = false) (cs : List Char) :
    (cs ++ '\n' :: x).takeWhile p = cs.takeWhile p ∧
      (cs ++ '\n' :: x).dropWhile p = cs.dropWhile p ++ '\n' :: x :=
  span_append fun _ => List.takeWhile_cons_of_neg (by simp [hp])

theorem splitLine_append (cs : List Char) :
    splitLine (cs ++ '\n' :: x) = ((splitLine cs).1, (splitLine cs).2 ++ '\n' :: x) := by
  obtain ⟨htake, hdrop⟩ := span_line x (p := (· ≠ '\n')) (by decide) cs
  rw [splitLine, htake, hdrop]
  rfl

theorem splitBlockComment_of_closed (h : ['*', '/'] <:+: cs) :
    splitBlockComment (cs ++ x) = ((splitBlockComment cs).1, (splitBlockComment cs).2 ++ x) := by
  fun_induction splitBlockComment cs with
  | case1 rest => rfl
  | case2 c rest hno r ih =>
    have hrest : ['*', '/'] <:+: rest := by
      rcases List.infix_cons_iff.1 h with hfirst | hrest
      · obtain ⟨rfl, tail, rfl⟩ := List.cons_prefix_cons.1 hfirst
        exact absurd rfl (hno tail rfl)
      · exact hrest
    rw [List.cons_append, splitBlockComment, ih hrest]
    rintro tail rfl htail
    cases rest with
    | nil => simp at hrest
    | cons d rest =>
      cases (List.cons.inj htail).1
      exact hno rest rfl rfl
  | case3 => simp at h

theorem splitComment_append {comment rest : List Char} (h : splitComment cs = some (comment, rest))
    (hopen : ¬ EndsInside cs) :
    splitComment (cs ++ '\n' :: x) = some (comment, rest ++ '\n' :: x) := by
  unfold splitComment at h
  split at h
  · next cs =>
    cases h
    rw [List.cons_append, List.cons_append, splitComment, splitLine_append]
  · next cs =>
    cases h
    have hclosed : ['*', '/'] <:+: cs := by
      by_contra hno
      exact hopen (.comment hno)
    rw [List.cons_append, List.cons_append, splitComment, splitBlockComment_of_closed _ hclosed]
  · next cs =>
    cases h
    rw [List.cons_append, List.cons_append, splitComment, splitLine_append]
  · contradiction

omit x in
theorem splitComment_cons_cons {d : Char} : splitComment (c :: d :: cs) = none ↔
    ¬ (c = '/' ∧ (d = '/' ∨ d = '*') ∨ c = '*' ∧ d = '*') := by
  unfold splitComment
  split <;> simp_all

theorem splitComment_append_none (h : splitComment cs = none) :
    splitComment (cs ++ '\n' :: x) = none := by
  match cs with
  | [] => rfl
  | [c] => exact splitComment_cons_cons.2 (by simp)
  | c :: d :: cs => exact splitComment_cons_cons.2 (splitComment_cons_cons.1 h)

theorem readText_append {q : Char} (x : List Char) :
    ∀ r, readText q cs = .ok r → r.2.2 = [] ∨
    readText q (cs ++ x) = .ok (r.1, r.2.1, r.2.2 ++ x) := by
  fun_induction readText q cs with
  | case1 =>
    rintro r ⟨⟩
    exact .inl rfl
  | case2 cs =>
    rintro r ⟨⟩
    right
    rw [List.cons_append, readText.eq_def]
    simp
  | case3 => simp
  | case4 d cs hq ih =>
    intro r h
    obtain ⟨a, ha, rfl⟩ := map_eq_ok h
    refine (ih a ha).imp_right fun hread => ?_
    rw [List.cons_append, List.cons_append, readText.eq_def]
    simp only [hq, if_false, if_true, hread]
    rfl
  | case5 c cs hq hslash ih =>
    intro r h
    obtain ⟨a, ha, rfl⟩ := map_eq_ok h
    refine (ih a ha).imp_right fun hread => ?_
    rw [List.cons_append, readText.eq_def]
    simp only [hq, hslash, if_false, hread]
    rfl

theorem readSymbol_append {rest : List Char} {s : Symbol} (h : readSymbol cs = some (s, rest)) :
    readSymbol (cs ++ '\n' :: x) = some (s, rest ++ '\n' :: x) := by
  have hlonger {cs : List Char} (hno : ∀ tail, cs = '=' :: tail → False) :
      ∀ tail, cs ++ '\n' :: x = '=' :: tail → False := by
    intro tail htail
    cases cs with
    | nil => exact absurd (List.cons.inj htail).1 (by decide)
    | cons d cs => exact hno cs (by rw [(List.cons.inj htail).1])
  unfold readSymbol at h
  split at h
  -- a symbol of one character stays one when the next character is no equals sign
  all_goals first
    | contradiction
    | cases h
      rfl
    | next cs hno =>
      cases h
      rw [List.cons_append, readSymbol]
      exact hlonger hno

theorem isPrefixOf_append {word : List Char} (hword : '\n' ∉ word) (cs : List Char) :
    word.isPrefixOf (cs ++ '\n' :: x) = word.isPrefixOf cs := by
  induction word generalizing cs with
  | nil => rfl
  | cons a word ih =>
    rw [List.mem_cons, not_or] at hword
    cases cs with
    | nil =>
      rw [List.nil_append, List.isPrefixOf_cons_cons, beq_false_of_ne (Ne.symm hword.1),
        Bool.false_and]
      rfl
    | cons c cs =>
      rw [List.cons_append, List.isPrefixOf_cons_cons, List.isPrefixOf_cons_cons, ih hword.2]

/-- A directive without its closing bracket is one that the source ends inside. -/
theorem directive_closed {tail : List Char} (hword : directiveWord.isPrefixOf cs = true)
    (htail : (cs.dropWhile (!isBlank ·)).dropWhile isLayout = '<' :: tail)
    (hopen : ¬ EndsInside cs) : tail.dropWhile (· ≠ '>') ≠ [] := by
  intro hnone
  apply hopen
  have hcs : cs = cs.takeWhile (!isBlank ·) ++
      ((cs.dropWhile (!isBlank ·)).takeWhile isLayout ++ '<' :: tail) := by
    rw [← htail, List.takeWhile_append_dropWhile, List.takeWhile_append_dropWhile]
  rw [hcs]
  refine .directive ?_ ?_ ?_ ?_ ?_
  · obtain ⟨rest, rfl⟩ := List.isPrefixOf_iff_prefix.1 hword
    rw [List.takeWhile_append_of_pos directiveWord_not_blank]
    exact List.prefix_append _ _
  · intro c hc
    simpa using List.mem_takeWhile_imp hc
  · -- the word ends at a blank, which an angle bracket is not
    intro hgap
    have hrest : cs.dropWhile (!isBlank ·) = '<' :: tail := by
      rw [← List.takeWhile_append_dropWhile (p := isLayout) (l := cs.dropWhile _), hgap, htail]
      rfl
    have hblank := List.head?_dropWhile_not (!isBlank ·) cs
    rw [hrest] at hblank
    change (!isBlank '<') = false at hblank
    exact absurd hblank (by decide)
  · exact fun c hc => List.mem_takeWhile_imp hc
  · intro hmem
    have hnot := List.dropWhile_eq_nil_iff.1 hnone '>' hmem
    simp at hnot

theorem readDirective_append {p : Place}
    (hword : directiveWord.isPrefixOf cs = true) (h : readDirective p cs = .ok piece)
    (hopen : ¬ EndsInside cs) :
    readDirective p (cs ++ '\n' :: x) = .ok { piece with rest := piece.rest ++ '\n' :: x } := by
  obtain ⟨hword₁, hword₂⟩ := span_line x (p := (!isBlank ·)) (by decide) cs
  unfold readDirective at h ⊢
  rw [hword₁, hword₂]
  dsimp only at h ⊢
  split at h
  · next tail htail =>
    cases h
    have hclosed := directive_closed hword htail hopen
    obtain ⟨hgap₁, hgap₂⟩ := span_append (p := isLayout) (x := '\n' :: x)
      (fun hnil => by rw [htail] at hnil; contradiction)
    obtain ⟨hname₁, hname₂⟩ := span_append (p := (· ≠ '>')) (x := '\n' :: x)
      (fun hnil => absurd hnil hclosed)
    rw [hgap₁, hgap₂, htail]
    simp only [List.cons_append, hname₁, hname₂]
    rw [List.take_append_of_le_length, List.drop_append_of_le_length]
    all_goals exact List.length_pos_iff.2 hclosed
  · contradiction

/-- A lexeme is taken as before when a line end follows: no class of characters that one is made of
holds the line end, and texts and directives, which may go over it, are closed before. -/
theorem Takes.append (h : Takes c cs piece)
    (hopen : ¬ EndsInside (c :: cs)) (htext : ∀ s, piece.lexeme = .text s → piece.rest ≠ []) :
    Takes c (cs ++ '\n' :: x) { piece with rest := piece.rest ++ '\n' :: x } := by
  have hline : '\n' ∉ directiveWord := fun hmem => absurd (directiveWord_not_blank _ hmem)
    (by decide)
  have hsame : directiveWord.isPrefixOf (c :: (cs ++ '\n' :: x)) = directiveWord.isPrefixOf
      (c :: cs) :=
    isPrefixOf_append x hline (c :: cs)
  cases h with
  | directive hword hread =>
    exact .directive (hsame.trans hword) fun p => readDirective_append x hword (hread p) hopen
  | number hword hdigit hread =>
    obtain ⟨htake, hdrop⟩ := span_line x (p := isNumberChar) (by decide) (c :: cs)
    rw [← htake] at hread
    rw [← htake, ← hdrop]
    exact .number (hsame.trans hword) hdigit hread
  | text hword hdigit hquote hread =>
    rcases readText_append ('\n' :: x) _ hread with hend | hread'
    · exact absurd hend (htext _ rfl)
    · exact .text (hsame.trans hword) hdigit hquote hread'
  | name hword hdigit hquote hstart =>
    obtain ⟨htake, hdrop⟩ := span_line x (p := isNameChar) (by decide) (c :: cs)
    rw [← htake, ← hdrop]
    exact .name (hsame.trans hword) hdigit hquote hstart
  | symbol hword hdigit hquote hstart hread =>
    exact .symbol (hsame.trans hword) hdigit hquote hstart (readSymbol_append x hread)

end

/-! ## Whole sources -/

theorem readNumber_ne_finish {l : Lexeme} (h : readNumber cs = .ok l) : l ≠ .finish := by
  unfold readNumber at h
  split at h
  all_goals
    split at h
    · cases h
      simp
    · contradiction

theorem readDirective_ne_finish {p : Place}
    (h : readDirective p cs = .ok piece) : piece.lexeme ≠ .finish := by
  unfold readDirective at h
  dsimp only at h
  split at h
  · cases h
    nofun
  · contradiction

theorem wordLexeme_ne_finish (word : String) : wordLexeme word ≠ .finish := by
  unfold wordLexeme
  split <;> nofun

theorem Takes.ne_finish (h : Takes c cs piece) : piece.lexeme ≠ .finish := by
  cases h with
  | directive _ hread => exact readDirective_ne_finish (hread {})
  | number _ _ hread => exact readNumber_ne_finish hread
  | text => nofun
  | name => exact wordLexeme_ne_finish _
  | symbol => nofun

variable {p : Program} {ks : List Lexeme} {ts : List Token}

theorem Scans.of_nil (h : Scans [] ks) : ks = [.finish] := by
  cases h with
  | done => rfl
  | comment hcomment _ => contradiction

theorem Scans.lexemes (h : Scans cs ks) : ∃ ls, ks = ls ++ [.finish] ∧ Lexeme.finish ∉ ls := by
  induction h with
  | done => exact ⟨[], rfl, nofun⟩
  | layout _ _ ih => exact ih
  | comment _ _ ih => exact ih
  | lexeme _ _ hread _ ih =>
    obtain ⟨ls, rfl, hls⟩ := ih
    refine ⟨_ :: ls, rfl, fun hmem => ?_⟩
    rcases List.mem_cons.1 hmem with heq | hmem
    · exact (readLexeme_iff.1 (hread {})).ne_finish heq.symm
    · exact hls hmem

/-- A source that ends neither inside a comment or a directive nor in a text is read as before when
a line end and another source follow it. -/
theorem Scans.append {a b : List Char} {ls ms : List Lexeme} (ha : Scans a ks)
    (hks : ks = ls ++ [.finish]) (hopen : ¬ EndsInside a)
    (htext : ∀ s, ls.getLast? ≠ some (.text s)) (hb : Scans b ms) :
    Scans (a ++ '\n' :: b) (ls ++ ms) := by
  induction ha generalizing ls with
  | done =>
    obtain rfl : ls = [] := by simpa using hks
    exact .layout (by decide) hb
  | layout hc _ ih => exact .layout hc (ih hks (fun h => hopen (.layout hc h)) htext)
  | comment hcomment _ ih =>
    exact .comment (splitComment_append b hcomment hopen)
      (ih hks (fun h => hopen (.afterComment hcomment h)) htext)
  | @lexeme c cs piece ks hc hcomment hread hrest ih =>
    obtain ⟨ls', rfl, -⟩ := hrest.lexemes
    obtain rfl : ls = piece.lexeme :: ls' := (List.append_cancel_right hks).symm
    have hlast : ∀ s, ls'.getLast? ≠ some (.text s) :=
      fun s h => htext s (by rw [List.getLast?_cons, h]; rfl)
    have hclosed : ∀ s, piece.lexeme = .text s → piece.rest ≠ [] := by
      intro s hs hnil
      rw [hnil] at hrest
      have hend : ls' ++ [.finish] = [.finish] := hrest.of_nil
      obtain rfl : ls' = [] := by simpa using hend
      exact htext s (by rw [hs]; rfl)
    have htakes := (readLexeme_iff.1 (hread {})).append b hopen hclosed
    have hscans := Scans.lexeme hc (splitComment_append_none b hcomment)
      (fun _ => readLexeme_iff.2 htakes)
      (ih rfl (fun h => hopen (.afterLexeme hc hcomment hread h)) hlast)
    exact hscans

theorem text_not_last {ls : List Lexeme} (hts : ts.map (·.lexeme) = ls ++ [.finish])
    (hls : Lexeme.finish ∉ ls) (hparse : Program.parse ts = .ok p) (s : String) :
    ls.getLast? ≠ some (.text s) := by
  obtain ⟨ds, e, items, rfl, -, -, -, hrow⟩ := Parser.parts_of_parse hts hls hparse 0
  rcases Parser.edges_of_each hrow.each with hnil | ⟨-, hclosed⟩
  · rw [hnil, List.append_nil, List.getLast?_map]
    cases p.includes.getLast? <;> nofun
  · rcases hclosed.append (p.includes.map .includes) with h | h <;> rw [h] <;> nofun

/-- Two sources in a row, the second without directives, are parsed to the statements of both. -/
theorem load_append {a b : String} {us : List Token} {q : Program} (hts : scan a = .ok ts)
    (hp : Program.parse ts = .ok p) (hus : scan b = .ok us) (hq : Program.parse us = .ok q)
    (hincludes : q.includes = []) (hopen : ¬ EndsInside a.toList) :
      ∃ vs, scan (a ++ "\n" ++ b) = .ok vs ∧
      Program.parse vs = .ok ⟨p.includes, p.statements ++ q.statements⟩ := by
  have ha : Scans a.toList (ts.map (·.lexeme)) := scan_iff.1 ⟨ts, hts, rfl⟩
  have hb : Scans b.toList (us.map (·.lexeme)) := scan_iff.1 ⟨us, hus, rfl⟩
  obtain ⟨ls, hls, hfinish⟩ := ha.lexemes
  obtain ⟨ms, hms, hfinish'⟩ := hb.lexemes
  have hboth := ha.append hls hopen (text_not_last hls hfinish hp) hb
  have hchars : (a ++ "\n" ++ b).toList = a.toList ++ '\n' :: b.toList := by simp
  rw [← hchars] at hboth
  obtain ⟨vs, hvs, hlex⟩ := scan_iff.2 hboth
  rw [hms, ← List.append_assoc] at hlex
  exact ⟨vs, hvs, Parser.parse_append hls hfinish hms hfinish' hlex hp hq hincludes⟩

/-! ## Runs -/

theorem runSource_eq {source : String} (hts : scan source = .ok ts)
    (hp : Program.parse ts = .ok p) : runSource source = runProgram p := by
  have hload : load source = pure p := by
    unfold load
    rw [hts]
    dsimp only
    rw [hp]
  unfold runSource
  rw [hload]
  rfl

theorem loadIncludes_nil (d : Nat) : loadIncludes d [] = pure () := by
  cases d with
  | zero => rw [loadIncludes]
  | succ d =>
    rw [loadIncludes]
    rfl

/-- The values of earlier statements have no part in what statements do. -/
theorem discard_runStatements (statements : List Stmt) (v : Value) :
    discard (statements.foldlM (fun _ s => runStatement globalScope s) v : Action Value) =
      discard (runStatements statements) := by
  unfold runStatements
  cases statements with
  | nil => rfl
  | cons s ss => rfl

theorem discard_bind_action {α β : Type} (x : Action α) (f : α → Action β) :
    discard (x >>= f) = x >>= fun a => discard (f a) :=
  map_bind _ x f

theorem bind_discard {α β : Type} (x : Action α) (y : Action β) :
    (discard x >>= fun _ => y) = x >>= fun _ => y :=
  bind_map_left _ x _

theorem discard_runStatements_append (ss ss' : List Stmt) :
    discard (runStatements (ss ++ ss')) =
      (do discard (runStatements ss); discard (runStatements ss') : Action Unit) := by
  calc discard (runStatements (ss ++ ss'))
      = discard (runStatements ss >>= fun v =>
          ss'.foldlM (fun _ s => runStatement globalScope s) v) := by
        unfold runStatements
        rw [List.foldlM_append]
    _ = runStatements ss >>= fun _ => discard (runStatements ss') := by
        rw [discard_bind_action]
        simp only [discard_runStatements]
    _ = discard (runStatements ss) >>= fun _ => discard (runStatements ss') :=
        (bind_discard _ _).symm

/-- Two sources in a row, the second without directives, are one program: its directives are those
of the first source, and its statements are those of the first and then those of the second. It runs
as the first source and then, if that ends without an error, the second one, from whatever world it
starts in. -/
theorem sources_in_a_row_run_one_after_the_other {a b : String} {ts us : List Token} {p q : Program}
    (hts : scan a = .ok ts) (hp : Program.parse ts = .ok p) (hus : scan b = .ok us)
    (hq : Program.parse us = .ok q) (hincludes : q.includes = []) (hopen : ¬ EndsInside a.toList) :
    (∃ vs, scan (a ++ "\n" ++ b) = .ok vs ∧
      Program.parse vs = .ok ⟨p.includes, p.statements ++ q.statements⟩) ∧
    discard (runSource (a ++ "\n" ++ b)) =
      (do discard (runSource a); discard (runSource b) : Action Unit) := by
  obtain ⟨vs, hvs, hboth⟩ := load_append hts hp hus hq hincludes hopen
  refine ⟨⟨vs, hvs, hboth⟩, ?_⟩
  rw [runSource_eq hvs hboth, runSource_eq hts hp, runSource_eq hus hq]
  unfold runProgram
  rw [hincludes, loadIncludes_nil, pure_bind, discard_bind_action, discard_bind_action]
  simp only [discard_runStatements_append, bind_assoc]

theorem conditional_runs_before_assignment :
    ¬ EndsInside "if(a)\x7b\x7d//".toList ∧
    (∃ vs, scan ("if(a)\x7b\x7d//" ++ "\n" ++ "a=1;") = .ok vs ∧ Program.parse vs =
      .ok ⟨[], [.cond (.name "a") [] none, .expr (.assign "a" (.literal (.whole 1)))]⟩) ∧
    discard (runSource ("if(a)\x7b\x7d//" ++ "\n" ++ "a=1;")) =
      (do discard (runSource "if(a)\x7b\x7d//"); discard (runSource "a=1;") : Action Unit) := by
  have hopen : ¬ EndsInside "if(a)\x7b\x7d//".toList := by
    intro h
    have h := h.of_lexeme rfl rfl rfl rfl
    have h := h.of_lexeme rfl rfl rfl rfl
    have h := h.of_lexeme rfl rfl rfl rfl
    have h := h.of_lexeme rfl rfl rfl rfl
    have h := h.of_lexeme rfl rfl rfl rfl
    have h := h.of_lexeme rfl rfl rfl rfl
    exact EndsInside.not_nil (h.of_line rfl)
  have ha : scan "if(a)\x7b\x7d//" = .ok [⟨.keyword .ifWord, 1, 1⟩, ⟨.symbol .lparen, 1, 3⟩,
      ⟨.name "a", 1, 4⟩,
      ⟨.symbol .rparen, 1, 5⟩, ⟨.symbol .lbrace, 1, 6⟩, ⟨.symbol .rbrace, 1, 7⟩,
      ⟨.finish, 1, 10⟩] := rfl
  have hb : scan "a=1;" = .ok [⟨.name "a", 1, 1⟩, ⟨.symbol .assign, 1, 2⟩, ⟨.whole 1, 1, 3⟩,
      ⟨.symbol .semicolon, 1, 4⟩, ⟨.finish, 1, 5⟩] := rfl
  exact ⟨hopen, sources_in_a_row_run_one_after_the_other ha rfl hb rfl rfl hopen⟩

end ScriptLang
