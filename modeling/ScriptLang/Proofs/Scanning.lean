import ScriptLang.Token.Scan

/-!
# How a source text is read

`Scans` says which lexemes a source text is read as, round by round: a round passes over a blank or
a comment, or takes a lexeme. It holds exactly of the sources that the scanner reads, with the
lexemes of the tokens it gives (`scan_iff`). Places play no part in it, and neither does the bound
on the number of rounds, since every round takes at least one character.
-/

namespace ScriptLang

open ScriptLang.Text ScriptLang.Number

variable {c : Char} {cs : List Char} {piece : Piece} {p : Place}

/-- The lexemes that the characters of a source are read as. -/
inductive Scans : List Char → List Lexeme → Prop
  | done : Scans [] [.finish]
  | layout {c : Char} {cs : List Char} {ls : List Lexeme} :
      isLayout c = true → Scans cs ls → Scans (c :: cs) ls
  | comment {cs comment rest : List Char} {ls : List Lexeme} :
      splitComment cs = some (comment, rest) → Scans rest ls → Scans cs ls
  | lexeme {c : Char} {cs : List Char} {piece : Piece} {ls : List Lexeme} :
      isLayout c = false → splitComment (c :: cs) = none →
      (∀ p, readLexeme p (c :: cs) = .ok piece) → Scans piece.rest ls →
      Scans (c :: cs) (piece.lexeme :: ls)

/-! ## Every round takes something -/

theorem length_dropWhile_le (p : Char → Bool) (cs : List Char) :
    (cs.dropWhile p).length ≤ cs.length :=
  (List.dropWhile_sublist p).length_le

theorem length_dropWhile_lt {p : Char → Bool} (cs : List Char) (h : p c = true) :
    ((c :: cs).dropWhile p).length < (c :: cs).length := by
  rw [List.dropWhile_cons_of_pos h]
  exact Nat.lt_succ_of_le (length_dropWhile_le p cs)

theorem splitBlockComment_length_le (cs : List Char) :
    (splitBlockComment cs).2.length ≤ cs.length := by
  fun_induction splitBlockComment cs with
  | case1 rest => exact Nat.le_add_right _ 2
  | case2 c rest _ r ih => exact Nat.le_succ_of_le ih
  | case3 => exact Nat.le_refl _

theorem splitComment_length_lt {comment rest : List Char}
    (h : splitComment cs = some (comment, rest)) : rest.length < cs.length := by
  unfold splitComment at h
  split at h
  · cases h
    exact Nat.lt_succ_of_le (Nat.le_succ_of_le (length_dropWhile_le _ _))
  · cases h
    exact Nat.lt_succ_of_le (Nat.le_succ_of_le (splitBlockComment_length_le _))
  · cases h
    exact Nat.lt_succ_of_le (Nat.le_succ_of_le (length_dropWhile_le _ _))
  · contradiction

theorem map_eq_ok {α β : Type} {x : Except ScanError α} {f : α → β} {y : β}
    (h : x.map f = .ok y) : ∃ a, x = .ok a ∧ f a = y := by
  cases x with
  | error e => contradiction
  | ok a => exact ⟨a, rfl, Except.ok.inj h⟩

theorem readText_eq (q : Char) (cs : List Char) : ∀ r : List Char × List Char × List Char,
    readText q cs = .ok r → r.1 ++ r.2.2 = cs := by
  fun_induction readText q cs with
  | case1 =>
    rintro r ⟨⟩
    rfl
  | case2 =>
    rintro r ⟨⟩
    rfl
  | case3 => rintro r ⟨⟩
  | case4 d cs _ ih =>
    intro r h
    obtain ⟨a, ha, rfl⟩ := map_eq_ok h
    exact congrArg (_ :: d :: ·) (ih a ha)
  | case5 c cs _ _ ih =>
    intro r h
    obtain ⟨a, ha, rfl⟩ := map_eq_ok h
    exact congrArg (c :: ·) (ih a ha)

theorem readText_length_le {q : Char} {r : List Char × List Char × List Char}
    (h : readText q cs = .ok r) : r.2.2.length ≤ cs.length := by
  rw [← readText_eq q cs r h, List.length_append]
  exact Nat.le_add_left _ _

theorem readSymbol_length_lt {rest : List Char} {s : Symbol} (h : readSymbol cs = some (s, rest)) :
    rest.length < cs.length := by
  unfold readSymbol at h
  split at h
  all_goals first
    | contradiction
    | cases h
      simp only [List.length_cons]
      omega

theorem isNameChar_of_isNameStart (h : isNameStart c = true) : isNameChar c = true := by
  unfold isNameStart isLetter at h
  unfold isNameChar isAlphanumeric
  split at h
  · next hascii =>
    rw [if_pos hascii]
    rw [Char.isAlphanum]
    grind
  · next hascii =>
    rw [if_neg hascii]
    grind

theorem readDirective_length_lt (h : readDirective p cs = .ok piece) :
    piece.rest.length < cs.length := by
  unfold readDirective at h
  dsimp only at h
  split at h
  · next tail htail =>
    cases h
    have hclose := length_dropWhile_le (· ≠ '>') tail
    have hgap := length_dropWhile_le isLayout (cs.dropWhile (!isBlank ·))
    have hword := length_dropWhile_le (!isBlank ·) cs
    rw [htail, List.length_cons] at hgap
    rw [List.length_drop]
    omega
  · contradiction

/-! ## What a lexeme is taken from -/

/-- The ways to take a lexeme from a source that starts with `c`, in the order in which they are
tried. -/
inductive Takes (c : Char) (cs : List Char) : Piece → Prop
  | directive {piece : Piece} : directiveWord.isPrefixOf (c :: cs) = true →
      (∀ p, readDirective p (c :: cs) = .ok piece) → Takes c cs piece
  | number {l : Lexeme} : directiveWord.isPrefixOf (c :: cs) = false → isDigit c = true →
      readNumber ((c :: cs).takeWhile isNumberChar) = .ok l →
      Takes c cs ⟨(c :: cs).takeWhile isNumberChar, l, (c :: cs).dropWhile isNumberChar⟩
  | text {r : List Char × List Char × List Char} : directiveWord.isPrefixOf (c :: cs) = false →
      isDigit c = false → (c = '"' || c = '\'') = true → readText c cs = .ok r →
      Takes c cs ⟨c :: r.1, .text (String.ofList r.2.1), r.2.2⟩
  | name : directiveWord.isPrefixOf (c :: cs) = false → isDigit c = false →
      (c = '"' || c = '\'') = false → isNameStart c = true →
      Takes c cs ⟨(c :: cs).takeWhile isNameChar,
        wordLexeme (String.ofList ((c :: cs).takeWhile isNameChar)), (c :: cs).dropWhile isNameChar⟩
  | symbol {s : Symbol} {rest : List Char} : directiveWord.isPrefixOf (c :: cs) = false →
      isDigit c = false → (c = '"' || c = '\'') = false → isNameStart c = false →
      readSymbol (c :: cs) = some (s, rest) → Takes c cs ⟨s.spelling.toList, .symbol s, rest⟩

theorem readDirective_place 
    (h : readDirective p cs = .ok piece) (p' : Place) : readDirective p' cs = .ok piece := by
  unfold readDirective at h ⊢
  dsimp only at h ⊢
  split at h
  · exact h
  · contradiction

theorem takes_of_readLexeme (h : readLexeme p (c :: cs) = .ok piece) : Takes c cs piece := by
  rw [readLexeme] at h
  split at h
  · next hword => exact .directive hword (readDirective_place h)
  · next hword =>
    have hword := Bool.eq_false_iff.2 hword
    split at h
    · next hdigit =>
      obtain ⟨l, hl, rfl⟩ := map_eq_ok h
      exact .number hword hdigit hl
    · next hdigit =>
      have hdigit := Bool.eq_false_iff.2 hdigit
      split at h
      · next hquote =>
        obtain ⟨r, hr, rfl⟩ := map_eq_ok h
        exact .text hword hdigit hquote hr
      · next hquote =>
        have hquote := Bool.eq_false_iff.2 hquote
        split at h
        · next hstart =>
          cases h
          exact .name hword hdigit hquote hstart
        · next hstart =>
          split at h
          · next hsymbol =>
            cases h
            exact .symbol hword hdigit hquote (Bool.eq_false_iff.2 hstart) hsymbol
          · contradiction

theorem readLexeme_iff : readLexeme p (c :: cs) = .ok piece ↔ Takes c cs piece := by
  refine ⟨takes_of_readLexeme, fun h => ?_⟩
  rw [readLexeme]
  cases h with
  | directive hword hread => rw [if_pos hword, hread]
  | number hword hdigit hread =>
    simp only [hword, hdigit, hread, Bool.false_eq_true, if_false, if_true]
    rfl
  | text hword hdigit hquote hread =>
    simp only [hword, hdigit, hquote, hread, Bool.false_eq_true, if_false, if_true]
    rfl
  | name hword hdigit hquote hstart =>
    simp only [hword, hdigit, hquote, hstart, Bool.false_eq_true, if_false, if_true]
  | symbol hword hdigit hquote hstart hread =>
    simp only [hword, hdigit, hquote, hstart, hread, Bool.false_eq_true, if_false]

theorem Takes.length_lt (h : Takes c cs piece) : piece.rest.length < (c :: cs).length := by
  cases h with
  | directive _ hread => exact readDirective_length_lt (hread {})
  | number _ hdigit _ => exact length_dropWhile_lt cs (by rw [isNumberChar, hdigit, Bool.true_or])
  | text _ _ _ hread => exact Nat.lt_succ_of_le (readText_length_le hread)
  | name _ _ _ hstart => exact length_dropWhile_lt cs (isNameChar_of_isNameStart hstart)
  | symbol _ _ _ _ hread => exact readSymbol_length_lt hread

/-! ## Rounds of the scanner -/

theorem scanFrom_layout (n : Nat) (p : Place) (cs : List Char) (h : isLayout c = true) :
    scanFrom (n + 1) p (c :: cs) = scanFrom (n + 1) (p.step c) cs := by
  rw [scanFrom, scanFrom, List.takeWhile_cons_of_pos h, List.dropWhile_cons_of_pos h]
  rfl

theorem isLayout_of_splitComment {r : List Char × List Char}
    (h : splitComment (c :: cs) = some r) : isLayout c = false := by
  unfold splitComment at h
  split at h
  · next heq => cases heq; rfl
  · next heq => cases heq; rfl
  · next heq => cases heq; rfl
  · contradiction

/-- The round on a source that starts with no blank. -/
theorem scanFrom_round (n : Nat) (p : Place) (cs : List Char) (h : isLayout c = false) :
    scanFrom (n + 1) p (c :: cs) =
      match splitComment (c :: cs) with
      | some (comment, rest) => scanFrom n (p.after comment) rest
      | none =>
          match readLexeme p (c :: cs) with
          | .error e => .error e
          | .ok piece =>
              let stop := p.after piece.taken
              (scanFrom n stop piece.rest).map (⟨piece.lexeme, stop.line, p.col⟩ :: ·) := by
  rw [scanFrom, List.takeWhile_cons_of_neg (by simp [h]), List.dropWhile_cons_of_neg (by simp [h])]
  rfl

/-- The scanner reads what `Scans` says, in any number of rounds that exceeds the number of
characters. -/
theorem Scans.scanFrom {ls : List Lexeme} (h : Scans cs ls) :
    ∀ (n : Nat) (p : Place), cs.length < n →
      ∃ tokens, scanFrom n p cs = .ok tokens ∧ tokens.map (·.lexeme) = ls := by
  induction h with
  | done =>
    intro n p hn
    obtain ⟨n, rfl⟩ := Nat.exists_eq_succ_of_ne_zero (Nat.ne_of_gt hn)
    exact ⟨_, rfl, rfl⟩
  | layout hc _ ih =>
    intro n p hn
    obtain ⟨n, rfl⟩ := Nat.exists_eq_succ_of_ne_zero (Nat.ne_zero_of_lt hn)
    rw [scanFrom_layout n p _ hc]
    exact ih (n + 1) _ (Nat.lt_of_succ_lt hn)
  | @comment cs comment rest ls hcomment _ ih =>
    intro n p hn
    obtain ⟨n, rfl⟩ := Nat.exists_eq_succ_of_ne_zero (Nat.ne_zero_of_lt hn)
    have hrest := splitComment_length_lt hcomment
    cases cs with
    | nil => contradiction
    | cons c cs =>
      rw [scanFrom_round n p cs (isLayout_of_splitComment hcomment), hcomment]
      exact ih n _ (by omega)
  | @lexeme c cs piece ls hc hcomment hread _ ih =>
    intro n p hn
    obtain ⟨n, rfl⟩ := Nat.exists_eq_succ_of_ne_zero (Nat.ne_zero_of_lt hn)
    have hrest := (readLexeme_iff.1 (hread p)).length_lt
    obtain ⟨tokens, hrun, hls⟩ := ih n (p.after piece.taken) (by omega)
    refine ⟨⟨piece.lexeme, (p.after piece.taken).line, p.col⟩ :: tokens, ?_, ?_⟩
    · rw [scanFrom_round n p cs hc, hcomment, hread p]
      show (ScriptLang.scanFrom n (p.after piece.taken) piece.rest).map _ = _
      rw [hrun]
      rfl
    · rw [List.map_cons, hls]

variable {tokens : List Token} {source : String}

theorem scans_of_scanFrom {n : Nat} (hn : cs.length < n) (h : scanFrom n p cs = .ok tokens) :
    Scans cs (tokens.map (·.lexeme)) := by
  -- on the number of rounds, and inside it on the blanks that a round starts with
  induction n generalizing p cs tokens with
  | zero => contradiction
  | succ n ih =>
    induction cs generalizing p with
    | nil =>
      cases h
      exact .done
    | cons c cs ihcs =>
      cases hc : isLayout c with
      | true =>
        rw [scanFrom_layout n p cs hc] at h
        exact .layout hc (ihcs (Nat.lt_of_succ_lt hn) h)
      | false =>
        rw [scanFrom_round n p cs hc] at h
        split at h
        · next comment rest hcomment =>
          have hrest := splitComment_length_lt hcomment
          exact .comment hcomment (ih (by omega) h)
        · next hcomment =>
          split at h
          · contradiction
          · next piece hread =>
            obtain ⟨rest, hrun, rfl⟩ := map_eq_ok h
            have htakes := readLexeme_iff.1 hread
            have hrest := htakes.length_lt
            exact .lexeme hc hcomment (fun _ => readLexeme_iff.2 htakes) (ih (by omega) hrun)

theorem scan_iff {ls : List Lexeme} :
    (∃ tokens, scan source = .ok tokens ∧ tokens.map (·.lexeme) = ls) ↔ Scans source.toList ls := by
  constructor
  · rintro ⟨tokens, hscan, rfl⟩
    exact scans_of_scanFrom (Nat.lt_succ_self _) hscan
  · intro h
    exact h.scanFrom _ _ (Nat.lt_succ_self _)

/-! ## What the tokens of a source have in common -/

theorem readDirective_includes {p : Place} {cs : List Char} {piece : Piece}
    (h : readDirective p cs = .ok piece) : ∃ name, piece.lexeme = .includes name := by
  unfold readDirective at h
  dsimp only at h
  split at h
  · rw [← Except.ok.inj h]
    exact ⟨_, rfl⟩
  · contradiction

/-- What holds of the end and of every lexeme that is taken holds of all tokens of a source. -/
theorem scan_forall_mem {ok : Lexeme → Prop} (hfinish : ok .finish)
    (htakes : ∀ c cs piece, Takes c cs piece → ok piece.lexeme) (h : scan source = .ok tokens) :
    ∀ t ∈ tokens, ok t.lexeme := by
  suffices ∀ cs ls, Scans cs ls → ∀ l ∈ ls, ok l from
    fun t ht => this _ _ (scan_iff.1 ⟨tokens, h, rfl⟩) _ (List.mem_map_of_mem ht)
  intro cs ls hscans
  induction hscans with
  | done => simpa using hfinish
  | layout _ _ ih | comment _ _ ih => exact ih
  | lexeme _ _ hread _ ih =>
    exact List.forall_mem_cons.2 ⟨htakes _ _ _ (readLexeme_iff.1 (hread {})), ih⟩

/-- The word for the receiver is reserved: no token of a source is a name spelled like it. -/
theorem scan_ne_this (h : scan source = .ok tokens) : ∀ t ∈ tokens, t.lexeme ≠ .name "this" := by
  refine @scan_forall_mem tokens source (· ≠ .name "this") nofun (fun c cs piece htakes => ?_) h
  cases htakes with
  | directive _ hread =>
    obtain ⟨name, hname⟩ := readDirective_includes (hread {})
    rw [hname]
    nofun
  | number _ _ hread =>
    unfold readNumber at hread
    split at hread <;> split at hread <;> cases hread <;> nofun
  | text => nofun
  | name =>
    unfold wordLexeme
    split
    · nofun
    · next hword =>
      intro heq
      rw [Lexeme.name.inj heq] at hword
      contradiction
  | symbol => nofun

end ScriptLang
