import Mathlib.Data.List.Chain
import Mathlib.Data.List.TakeWhile
import ScriptLang.Proofs.Scanning

/-!
# Words

A word is a lexeme together with the way it is written. Its characters are taken as that lexeme
wherever nothing or a blank follows them (`Word.readAs`): the kinds of lexemes start with different
characters, and a blank ends each of them.
-/

namespace ScriptLang

open ScriptLang.Text ScriptLang.Number

variable {cs rest : List Char}

/-! ## Characters -/

/-- One interval starts no later than another. -/
abbrev StartsBefore (r s : Nat × Nat) : Prop := r.1 ≤ s.1

instance : Trans StartsBefore StartsBefore StartsBefore := ⟨Nat.le_trans⟩

/-- Whether no interval of one list meets one of another, where both are in order of their
starts. -/
def apart : List (Nat × Nat) → List (Nat × Nat) → Bool
  | [], _ => true
  | l :: ls, ds =>
      match ds.dropWhile fun d => Nat.blt d.2 l.1 with
      | [] => true
      | d :: ds => Nat.blt l.2 d.1 && apart ls (d :: ds)

theorem lt_or_lt_of_apart {ls ds : List (Nat × Nat)} (hls : ls.Pairwise StartsBefore)
    (hds : ds.Pairwise StartsBefore) (h : apart ls ds = true) {l d : Nat × Nat} (hl : l ∈ ls)
    (hd : d ∈ ds) : d.2 < l.1 ∨ l.2 < d.1 := by
  induction ls generalizing ds with
  | nil => contradiction
  | cons l₁ ls ih =>
    obtain ⟨hfirst, hls⟩ := List.pairwise_cons.1 hls
    have hl₁ : l₁.1 ≤ l.1 := by
      rcases List.mem_cons.1 hl with rfl | hl
      · exact Nat.le_refl _
      · exact hfirst l hl
    -- what ends before the first interval of `ls` ends before them all
    by_cases hbefore : d.2 < l₁.1
    · exact .inl (Nat.lt_of_lt_of_le hbefore hl₁)
    · rw [← List.takeWhile_append_dropWhile (p := fun d => Nat.blt d.2 l₁.1) (l := ds),
        List.mem_append] at hd
      rcases hd with hd | hd
      · exact absurd (by simpa using List.mem_takeWhile_imp hd) hbefore
      rw [apart] at h
      cases hrest : ds.dropWhile fun d => Nat.blt d.2 l₁.1 with
      | nil =>
        rw [hrest] at hd
        contradiction
      | cons d₁ rest =>
        simp only [hrest, Bool.and_eq_true, Nat.blt_eq] at h hd
        have hds' : (d₁ :: rest).Pairwise StartsBefore :=
          hrest ▸ hds.sublist (List.dropWhile_sublist _)
        rcases List.mem_cons.1 hl with rfl | hl
        · right
          rcases List.mem_cons.1 hd with rfl | hd
          · exact h.1
          · exact Nat.lt_of_lt_of_le h.1 ((List.pairwise_cons.1 hds').1 d hd)
        · exact ih hls hds' h.2 hl hd

theorem letterRanges_ordered : letterRanges.Pairwise StartsBefore :=
  List.isChain_iff_pairwise.1 (by decide +kernel)

theorem digitRanges_ordered : digitRanges.Pairwise StartsBefore :=
  List.isChain_iff_pairwise.1 (by decide +kernel)

variable {c : Char}

theorem isDigit_of_isLetter (h : isLetter c = true) : isDigit c = false := by
  unfold isLetter at h
  unfold isDigit
  split at h
  · next hascii =>
    rw [if_pos hascii]
    have hval : c.val.toNat = c.toNat := rfl
    unfold Char.isAlpha Char.isUpper Char.isLower at h
    simp only [Char.isDigit, ge_iff_le, Bool.or_eq_true, Bool.and_eq_true, Bool.and_eq_false_iff,
      decide_eq_true_eq, decide_eq_false_iff_not, UInt32.le_iff_toNat_le, hval] at h ⊢
    right
    rcases h with h | h <;> simp at h ⊢ <;> omega
  · next hascii =>
    rw [if_neg hascii, Bool.eq_false_iff]
    intro hdigit
    obtain ⟨l, hl, hcl⟩ := List.any_eq_true.1 h
    obtain ⟨d, hd, hcd⟩ := List.any_eq_true.1 hdigit
    simp only [Bool.and_eq_true, decide_eq_true_eq] at hcl hcd
    rcases lt_or_lt_of_apart letterRanges_ordered digitRanges_ordered (by decide +kernel) hl
      hd with h | h
    all_goals omega

theorem isDigit_of_isNameStart (h : isNameStart c = true) : isDigit c = false := by
  rw [isNameStart, Bool.or_eq_true, decide_eq_true_eq] at h
  rcases h with h | rfl
  · exact isDigit_of_isLetter h
  · decide

theorem isLayout_cases (h : isLayout c = true) : c = ' ' ∨ c = '\t' ∨ c = '\n' ∨ c = '\r' := by
  simpa [isLayout, or_assoc] using h

theorem isLayout_of_class {p : Char → Bool} (hp : [' ', '\t', '\n', '\r'].any p = false)
    (hc : p c = true) : isLayout c = false := by
  rw [Bool.eq_false_iff]
  intro h
  have hmem : c ∈ [' ', '\t', '\n', '\r'] := by simpa using isLayout_cases h
  exact List.any_eq_false.1 hp c hmem hc

/-! ## Words -/

/-- Nothing follows, or a blank does. -/
def Apart (rest : List Char) : Prop :=
  ∀ c ∈ rest.head?, isLayout c = true

/-- Characters that are taken as a lexeme when nothing or a blank follows. -/
def ReadAs (cs : List Char) (l : Lexeme) : Prop :=
  ∃ c tail, cs = c :: tail ∧ isLayout c = false ∧ ∀ rest, Apart rest →
    splitComment (cs ++ rest) = none ∧
    ∃ taken, ∀ p, readLexeme p (cs ++ rest) = .ok ⟨taken, l, rest⟩

theorem ReadAs.scans {l : Lexeme} {ls : List Lexeme} (h : ReadAs cs l)
    (hrest : Apart rest) (hls : Scans rest ls) : Scans (cs ++ rest) (l :: ls) := by
  obtain ⟨c, tail, rfl, hc, hread⟩ := h
  obtain ⟨hcomment, taken, hread⟩ := hread rest hrest
  exact .lexeme hc hcomment hread hls

theorem takeWhile_apart {p : Char → Bool} (hp : [' ', '\t', '\n', '\r'].any p = false)
    {word : List Char} (hword : ∀ c ∈ word, p c = true) (hrest : Apart rest) :
    (word ++ rest).takeWhile p = word ∧ (word ++ rest).dropWhile p = rest := by
  have hstop : rest.takeWhile p = [] ∧ rest.dropWhile p = rest := by
    cases rest with
    | nil => exact ⟨rfl, rfl⟩
    | cons c rest =>
      have hc := List.any_eq_false.1 hp c (by simpa using isLayout_cases (hrest c rfl))
      exact ⟨List.takeWhile_cons_of_neg hc, List.dropWhile_cons_of_neg hc⟩
  rw [List.takeWhile_append_of_pos hword, List.dropWhile_append_of_pos hword, hstop.1, hstop.2,
    List.append_nil]
  exact ⟨rfl, rfl⟩

theorem splitComment_eq_none (h₁ : c ≠ '/') (h₂ : c ≠ '*') (cs : List Char) :
    splitComment (c :: cs) = none := by
  unfold splitComment
  split
  · next heq => exact absurd (List.cons.inj heq).1 h₁
  · next heq => exact absurd (List.cons.inj heq).1 h₁
  · next heq => exact absurd (List.cons.inj heq).1 h₂
  · rfl

theorem directiveWord_eq : directiveWord = ['.', 'i', 'n', 'c', 'l', 'u', 'd', 'e'] :=
  rfl

theorem not_directive (h : c ≠ '.') (cs : List Char) :
    directiveWord.isPrefixOf (c :: cs) = false := by
  rw [directiveWord_eq, List.isPrefixOf_cons_cons, beq_false_of_ne h.symm, Bool.false_and]

theorem readLexeme_name (hc : isNameStart c = true) (p : Place) (cs : List Char) :
    readLexeme p (c :: cs) = .ok ⟨(c :: cs).takeWhile isNameChar,
      wordLexeme (String.ofList ((c :: cs).takeWhile isNameChar)),
      (c :: cs).dropWhile isNameChar⟩ := by
  have hne (d : Char) (hd : isNameStart d = false) : c ≠ d := by
    rintro rfl
    rw [hd] at hc
    contradiction
  rw [readLexeme, not_directive (hne '.' (by decide)), isDigit_of_isNameStart hc, hc]
  simp [hne '"' (by decide), hne '\'' (by decide)]

theorem name_readAs (hc : isNameStart c = true) (hcs : ∀ d ∈ cs, isNameChar d = true) :
    ReadAs (c :: cs) (wordLexeme (String.ofList (c :: cs))) := by
  have hword : ∀ d ∈ c :: cs, isNameChar d = true :=
    List.forall_mem_cons.2 ⟨isNameChar_of_isNameStart hc, hcs⟩
  refine ⟨c, cs, rfl, isLayout_of_class (by decide) hc, fun rest hrest => ?_⟩
  have hne (d : Char) (hd : isNameStart d = false) : c ≠ d := by
    rintro rfl
    rw [hd] at hc
    contradiction
  obtain ⟨htake, hdrop⟩ := takeWhile_apart (by decide) hword hrest
  refine ⟨splitComment_eq_none (hne '/' (by decide)) (hne '*' (by decide)) _, c :: cs, fun p => ?_⟩
  have hread := readLexeme_name hc p (cs ++ rest)
  rw [← List.cons_append, htake, hdrop] at hread
  exact hread

/-! ### Numbers -/

theorem toNat_of_isDigit (h : c.isDigit = true) : 48 ≤ c.toNat ∧ c.toNat ≤ 57 := by
  simpa [Char.isDigit, UInt32.le_iff_toNat_le] using h

section

variable {c : Char} (h : c.isDigit = true)

include h

theorem isDigit_of_decimal : isDigit c = true := by
  have := toNat_of_isDigit h
  rw [isDigit, if_pos (by omega), h]

theorem decimalValue_of_decimal : decimalValue c = some (c.toNat - 48) := by
  have := toNat_of_isDigit h
  rw [decimalValue, if_pos (by omega), if_pos h]

theorem isBlank_of_decimal : isBlank c = false := by
  have := toNat_of_isDigit h
  simp [isBlank, inRanges, blankRanges]
  omega

theorem ne_of_decimal {d : Char} (hd : d.isDigit = false) : c ≠ d := by
  rintro rfl
  rw [hd] at h
  contradiction

end

theorem trimBy_eq_self {p : Char → Bool} (h : ∀ c ∈ cs, p c = false) : trimBy p cs = cs := by
  have hdrop {ds : List Char} (hds : ∀ c ∈ ds, p c = false) : ds.dropWhile p = ds := by
    cases ds with
    | nil => rfl
    | cons d ds => exact List.dropWhile_cons_of_neg (by simp [hds d])
  rw [trimBy, hdrop h, hdrop (fun c hc => h c (List.mem_reverse.1 hc)), List.reverse_reverse]

theorem readSign_of_decimals (h : ∀ c ∈ cs, c.isDigit = true) : readSign cs = (false, cs) := by
  unfold readSign
  split
  · next cs => exact absurd (h '-' (by simp)) (by decide)
  · next cs => exact absurd (h '+' (by simp)) (by decide)
  · rfl

theorem readDigits_of_decimals (h : ∀ c ∈ cs, c.isDigit = true) (after : Bool) :
    readDigits after cs = (cs.map fun c => c.toNat - 48, []) := by
  induction cs generalizing after with
  | nil => rfl
  | cons c cs ih =>
    rw [List.forall_mem_cons] at h
    rw [readDigits, decimalValue_of_decimal h.1, ih h.2]
    rfl

theorem readNumber_toDigits {n : Nat} (hn : (Nat.toDigits 10 n).length ≤ 4300) :
    readNumber (Nat.toDigits 10 n) = .ok (.whole n) := by
  have hdigits : ∀ c ∈ Nat.toDigits 10 n, c.isDigit = true :=
    fun c hc => Nat.isDigit_of_mem_toDigits (by decide) (by decide) hc
  have hpoint : (Nat.toDigits 10 n).contains '.' = false := by
    simpa using fun hmem => ne_of_decimal (hdigits '.' hmem) (d := '.') (by decide) rfl
  have hvalue : ofDigits ((Nat.toDigits 10 n).map fun c => c.toNat - 48) = n := by
    have hread := Nat.ofDigitChars_ten_toDigits (n := n)
    rw [Nat.ofDigitChars_eq_foldl] at hread
    rw [ofDigits, List.foldl_map]
    exact hread
  have hwhole : readWhole readNumber.maxLiteralDigits (Nat.toDigits 10 n) = .ok (n : Int) := by
    rw [readWhole, trimBy_eq_self fun c hc => isBlank_of_decimal (hdigits c hc),
      readSign_of_decimals hdigits]
    dsimp only
    rw [readDigits_of_decimals hdigits]
    simp [hvalue, hn, readNumber.maxLiteralDigits]
  rw [readNumber, hpoint, hwhole]
  rfl

theorem number_readAs {n : Nat} (hn : (Nat.toDigits 10 n).length ≤ 4300) :
    ReadAs (Nat.toDigits 10 n) (.whole n) := by
  have hdigits : ∀ c ∈ Nat.toDigits 10 n, c.isDigit = true :=
    fun c hc => Nat.isDigit_of_mem_toDigits (by decide) (by decide) hc
  have hread := readNumber_toDigits hn
  cases hcs : Nat.toDigits 10 n with
  | nil => exact absurd hcs Nat.toDigits_ne_nil
  | cons c cs =>
    rw [hcs] at hdigits hread
    have hc := hdigits c List.mem_cons_self
    refine ⟨c, cs, rfl, isLayout_of_class (p := Char.isDigit) (by decide) hc, fun rest hrest => ?_⟩
    refine ⟨splitComment_eq_none (ne_of_decimal hc (by decide)) (ne_of_decimal hc (by decide)) _,
      c :: cs, fun p => ?_⟩
    have hword : ∀ d ∈ c :: cs, isNumberChar d = true := by
      intro d hd
      rw [isNumberChar, isDigit_of_decimal (hdigits d hd), Bool.true_or]
    obtain ⟨htake, hdrop⟩ := takeWhile_apart (by decide) hword hrest
    rw [List.cons_append] at htake hdrop ⊢
    rw [readLexeme, not_directive (ne_of_decimal hc (by decide)), isDigit_of_decimal hc]
    simp only [Bool.false_eq_true, if_false, if_true, htake, hdrop, hread]
    rfl

/-! ### Quoted texts -/

/-- A character in a text that is quoted with `q`; newlines and tabs are escaped on request. -/
def writeChar (q c : Char) (escape : Bool) : List Char :=
  if c = '\\' ∨ c = q then ['\\', c]
  else if escape = true ∧ c = '\n' then ['\\', 'n']
  else if escape = true ∧ c = '\t' then ['\\', 't']
  else [c]

/-- The characters that open and close a text. -/
def IsQuote (q : Char) : Prop :=
  q = '"' ∨ q = '\''

theorem readText_writeChar {q c : Char} (hq : IsQuote q) (escape : Bool) (cs : List Char) :
    ∃ taken, readText q (writeChar q c escape ++ cs) =
      (readText q cs).map fun r => (taken ++ r.1, c :: r.2.1, r.2.2) := by
  have hslash : ('\\' : Char) ≠ q := by rcases hq with rfl | rfl <;> decide
  have hescape (d : Char) : readText q ('\\' :: d :: cs) =
      (readText q cs).map fun r => ('\\' :: d :: r.1, unescape d :: r.2.1, r.2.2) := by
    rw [readText, if_neg hslash, if_pos rfl]
  unfold writeChar
  split
  · next h =>
    have hself : unescape c = c := by
      rcases h with rfl | rfl
      · decide
      · rcases hq with rfl | rfl <;> decide
    refine ⟨['\\', c], ?_⟩
    rw [List.cons_append, List.singleton_append, hescape, hself]
    rfl
  · next h =>
    rw [not_or] at h
    split
    · next hn => exact ⟨['\\', 'n'], hn.2 ▸ hescape 'n'⟩
    · split
      · next ht => exact ⟨['\\', 't'], ht.2 ▸ hescape 't'⟩
      · refine ⟨[c], ?_⟩
        rw [List.singleton_append, readText.eq_def]
        simp only [h.1, h.2, if_false]
        rfl

theorem readText_written {q : Char} (hq : IsQuote q) (marks : List (Char × Bool))
    (rest : List Char) :
    ∃ taken, readText q (marks.flatMap (fun m => writeChar q m.1 m.2) ++ q :: rest) =
      .ok (taken, marks.map Prod.fst, rest) := by
  induction marks with
  | nil =>
    refine ⟨[q], ?_⟩
    rw [List.flatMap_nil, List.nil_append, readText.eq_def]
    simp
  | cons m marks ih =>
    obtain ⟨taken, hrest⟩ := ih
    obtain ⟨first, hfirst⟩ := readText_writeChar (c := m.1) hq m.2
      (marks.flatMap (fun m => writeChar q m.1 m.2) ++ q :: rest)
    rw [List.flatMap_cons, List.append_assoc, hfirst, hrest]
    exact ⟨first ++ taken, rfl⟩

theorem text_readAs {q : Char} (hq : IsQuote q) (marks : List (Char × Bool)) :
    ReadAs (q :: (marks.flatMap (fun m => writeChar q m.1 m.2) ++ [q]))
      (.text (String.ofList (marks.map Prod.fst))) := by
  have hne (d : Char) (h₁ : d ≠ '"') (h₂ : d ≠ '\'') : q ≠ d := by
    rcases hq with rfl | rfl
    · exact h₁.symm
    · exact h₂.symm
  refine ⟨q, _, rfl, ?_, fun rest _ => ⟨?_, ?_⟩⟩
  · rcases hq with rfl | rfl <;> decide
  · exact splitComment_eq_none (hne '/' (by decide) (by decide)) (hne '*' (by decide) (by decide)) _
  · obtain ⟨taken, hread⟩ := readText_written hq marks rest
    refine ⟨q :: taken, fun p => ?_⟩
    have hdigit : isDigit q = false := by rcases hq with rfl | rfl <;> decide
    have hquote : (q = '"' || q = '\'') = true := by simpa [IsQuote] using hq
    rw [List.cons_append, List.append_assoc, List.singleton_append, readLexeme,
      not_directive (hne '.' (by decide) (by decide)), hdigit, if_neg Bool.false_ne_true,
      if_neg Bool.false_ne_true, if_pos hquote, hread]
    rfl

/-! ### Symbols -/

theorem Apart.cases {P : List Char → Prop} (h : Apart rest) (nil : P [])
    (cons : ∀ d ∈ [' ', '\t', '\n', '\r'], ∀ rest, P (d :: rest)) : P rest := by
  cases rest with
  | nil => exact nil
  | cons d rest => exact cons d (by simpa using isLayout_cases (h d rfl)) rest

theorem Symbol.spelling_start (s : Symbol) : ∃ c tail, s.spelling.toList = c :: tail ∧
    isLayout c = false ∧ isDigit c = false ∧ (c = '"' || c = '\'') = false ∧
    isNameStart c = false := by
  cases s <;> exact ⟨_, _, rfl, by decide⟩

theorem readSymbol_spelling (s : Symbol) (h : Apart rest) :
    readSymbol (s.spelling.toList ++ rest) = some (s, rest) := by
  refine h.cases (P := fun rest => readSymbol (s.spelling.toList ++ rest) = some (s, rest)) ?_ ?_
  · cases s <;> rfl
  · simp only [List.forall_mem_cons]
    cases s <;> exact ⟨fun _ => rfl, fun _ => rfl, fun _ => rfl, fun _ => rfl, nofun⟩

/-- A symbol with nothing or a blank after it opens neither a comment nor a directive. -/
theorem spelling_opens_nothing (s : Symbol) (h : Apart rest) :
    splitComment (s.spelling.toList ++ rest) = none ∧
      directiveWord.isPrefixOf (s.spelling.toList ++ rest) = false := by
  rw [directiveWord_eq]
  refine h.cases (P := fun rest => splitComment (s.spelling.toList ++ rest) = none ∧
    ['.', 'i', 'n', 'c', 'l', 'u', 'd', 'e'].isPrefixOf (s.spelling.toList ++ rest) = false) ?_ ?_
  · cases s <;> exact ⟨rfl, rfl⟩
  · simp only [List.forall_mem_cons]
    cases s <;> exact ⟨fun _ => ⟨rfl, rfl⟩, fun _ => ⟨rfl, rfl⟩, fun _ => ⟨rfl, rfl⟩,
      fun _ => ⟨rfl, rfl⟩, nofun⟩

theorem symbol_readAs (s : Symbol) : ReadAs s.spelling.toList (.symbol s) := by
  obtain ⟨c, tail, hs, hlayout, hdigit, hquote, hname⟩ := s.spelling_start
  refine ⟨c, tail, hs, hlayout, fun rest hrest => ?_⟩
  obtain ⟨hcomment, hdirective⟩ := spelling_opens_nothing s hrest
  have hread := readSymbol_spelling s hrest
  refine ⟨hcomment, s.spelling.toList, fun p => ?_⟩
  rw [hs, List.cons_append] at hdirective hread ⊢
  rw [readLexeme, hdirective, hdigit, hquote, hname, hread]
  simp [hs]

/-! ### Directives -/

theorem takeWhile_ne_append {d : Char} (h : d ∉ cs) (rest : List Char) :
    (cs ++ d :: rest).takeWhile (· ≠ d) = cs ∧ (cs ++ d :: rest).dropWhile (· ≠ d) = d :: rest := by
  have hcs : ∀ c ∈ cs, decide (c ≠ d) = true :=
    fun c hc => decide_eq_true (ne_of_mem_of_not_mem hc h)
  rw [List.takeWhile_append_of_pos hcs, List.dropWhile_append_of_pos hcs]
  simp

theorem directiveWord_not_blank : ∀ c ∈ directiveWord, (!isBlank c) = true := by
  rw [directiveWord_eq, ← List.all_eq_true]
  rfl

theorem readDirective_written (p : Place) {package : String} (h : '>' ∉ package.toList)
    (rest : List Char) :
    readDirective p (directiveWord ++ ' ' :: '<' :: (package.toList ++ '>' :: rest)) =
      .ok ⟨directiveWord ++ [' '] ++ '<' :: package.toList ++ ['>'], .includes package, rest⟩ := by
  obtain ⟨htake, hdrop⟩ := takeWhile_ne_append h rest
  unfold readDirective
  rw [List.takeWhile_append_of_pos directiveWord_not_blank,
    List.dropWhile_append_of_pos directiveWord_not_blank,
    List.takeWhile_cons_of_neg (by decide), List.dropWhile_cons_of_neg (by decide)]
  dsimp only
  rw [List.takeWhile_cons_of_pos (by decide), List.dropWhile_cons_of_pos (by decide),
    List.takeWhile_cons_of_neg (by decide), List.dropWhile_cons_of_neg (by decide)]
  simp only [htake, hdrop, List.append_nil, String.ofList_toList]
  rfl

theorem directive_readAs {package : String} (h : '>' ∉ package.toList) :
    ReadAs (directiveWord ++ ' ' :: '<' :: (package.toList ++ ['>'])) (.includes package) := by
  have hstart : directiveWord = '.' :: directiveWord.tail := by
    rw [directiveWord_eq]
    rfl
  refine ⟨'.', directiveWord.tail ++ ' ' :: '<' :: (package.toList ++ ['>']), ?_, by decide,
    fun rest _ => ?_⟩
  · nth_rewrite 1 [hstart]
    rfl
  have hread (p : Place) := readDirective_written p h rest
  simp only [List.append_assoc, List.cons_append, List.nil_append] at hread ⊢
  refine ⟨?_, directiveWord ++ ' ' :: '<' :: (package.toList ++ ['>']), fun p => ?_⟩
  · rw [hstart]
    exact splitComment_eq_none (by decide) (by decide) _
  · have hstarts : directiveWord.isPrefixOf
        (directiveWord ++ ' ' :: '<' :: (package.toList ++ '>' :: rest)) = true :=
      List.isPrefixOf_iff_prefix.2 (List.prefix_append _ _)
    rw [← hread p, hstart, List.cons_append, readLexeme, ← List.cons_append, ← hstart,
      if_pos hstarts]

/-! ### Names and reserved words -/

theorem ofSpelling?_spelling (k : Keyword) : Keyword.ofSpelling? k.spelling = some k := by
  cases k <;> rfl

theorem ofSpelling?_eq_none {s : String} (h : ∀ k : Keyword, k.spelling ≠ s) :
    Keyword.ofSpelling? s = none :=
  List.find?_eq_none.2 fun k _ => by simpa using h k

theorem Keyword.spelling_start (k : Keyword) : ∃ c tail, k.spelling.toList = c :: tail ∧
    isNameStart c = true ∧ tail.all isNameChar = true := by
  cases k <;> exact ⟨_, _, rfl, rfl, rfl⟩

theorem keyword_readAs (k : Keyword) : ReadAs k.spelling.toList (.keyword k) := by
  obtain ⟨c, tail, hk, hc, htail⟩ := k.spelling_start
  have hread := name_readAs hc (List.all_eq_true.1 htail)
  rw [← hk, String.ofList_toList, wordLexeme, ofSpelling?_spelling] at hread
  exact hread

/-! ### All words -/

/-- A lexeme and the way it is written. A text is written with either quote, and its newlines and
tabs with an escape or without one. -/
inductive Word where
  | keyword (k : Keyword)
  | symbol (s : Symbol)
  | whole (n : Nat) (short : (Nat.toDigits 10 n).length ≤ 4300)
  | text (q : Char) (quote : IsQuote q) (marks : List (Char × Bool))
  | name (c : Char) (cs : List Char) (start : isNameStart c = true)
      (inside : ∀ d ∈ cs, isNameChar d = true)
      (free : ∀ k : Keyword, k.spelling ≠ String.ofList (c :: cs))
  | includes (package : String) (inside : '>' ∉ package.toList)

/-- The lexeme of a word. -/
def Word.lexeme : Word → Lexeme
  | .keyword k => .keyword k
  | .symbol s => .symbol s
  | .whole n _ => .whole n
  | .text _ _ marks => .text (String.ofList (marks.map Prod.fst))
  | .name c cs _ _ _ => .name (String.ofList (c :: cs))
  | .includes package _ => .includes package

/-- The characters of a word. -/
def Word.chars : Word → List Char
  | .keyword k => k.spelling.toList
  | .symbol s => s.spelling.toList
  | .whole n _ => Nat.toDigits 10 n
  | .text q _ marks => q :: (marks.flatMap (fun m => writeChar q m.1 m.2) ++ [q])
  | .name c cs _ _ _ => c :: cs
  | .includes package _ => ".include <".toList ++ package.toList ++ ['>']

theorem Word.readAs (w : Word) : ReadAs w.chars w.lexeme := by
  cases w with
  | keyword k => exact keyword_readAs k
  | symbol s => exact symbol_readAs s
  | whole n short => exact number_readAs short
  | text q quote marks => exact text_readAs quote marks
  | name c cs start inside free =>
    have hread := name_readAs start inside
    rw [wordLexeme, ofSpelling?_eq_none free] at hread
    exact hread
  | includes package inside =>
    have hread := directive_readAs inside
    rw [directiveWord_eq] at hread
    exact hread

end ScriptLang
