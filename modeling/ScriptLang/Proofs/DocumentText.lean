import ScriptLang.Proofs.NumberText

/-!
# Documents and their texts

Reading the text of a document gives the document back, whatever follows the text, as long as it
could not go on with a number (`readValue_render`). The same argument shows that nothing else is
ever read from it, however little nesting is allowed, and this is what a text that breaks off in the
middle is judged by: a document cannot be read from it.
-/

namespace ScriptLang.Json

open ScriptLang.Number ScriptLang.Text

variable {c : Char} {fs : List (String × Json)} {first gaps rest : List Char} {vs : List Json}
  {fuel : Nat}

/-! ## Texts in quotes -/

theorem hexValue_digitChar {d : Nat} (h : d < 16) : hexValue d.digitChar = some d := by
  have hall : ∀ d < 16, hexValue (Nat.digitChar d) = some d := by decide
  exact hall d h

theorem hex_four {n : Nat} (h : n < 65536) :
    hex 4 n = [(n / 4096).digitChar, (n / 256 % 16).digitChar, (n / 16 % 16).digitChar,
      (n % 16).digitChar] := by
  have hsmall {k : Nat} (hk : k < 16) : Nat.toDigits 16 k = [k.digitChar] :=
    Nat.toDigits_of_lt_base hk
  have hlarge {k : Nat} (hk : 16 ≤ k) :
      Nat.toDigits 16 k = Nat.toDigits 16 (k / 16) ++ [(k % 16).digitChar] :=
    Nat.toDigits_of_base_le (by decide) hk
  rw [hex]
  by_cases h₁ : n < 16
  · rw [hsmall h₁, show n / 4096 = 0 by omega, show n / 256 % 16 = 0 by omega,
      show n / 16 % 16 = 0 by omega, Nat.mod_eq_of_lt h₁]
    rfl
  · by_cases h₂ : n < 256
    · rw [hlarge (by omega), hsmall (by omega), show n / 4096 = 0 by omega,
        show n / 256 % 16 = 0 by omega, Nat.mod_eq_of_lt (show n / 16 < 16 by omega)]
      rfl
    · by_cases h₃ : n < 4096
      · rw [hlarge (by omega), hlarge (by omega), hsmall (by omega), show n / 4096 = 0 by omega,
          show n / 16 / 16 = n / 256 % 16 by omega]
        rfl
      · rw [hlarge (by omega), hlarge (by omega), hlarge (by omega), hsmall (by omega),
          show n / 16 / 16 / 16 = n / 4096 by omega, show n / 16 / 16 % 16 = n / 256 % 16 by omega]
        rfl

theorem readUnit_hex {n : Nat} (h : n < 65536) (hne : rest ≠ []) :
    readUnit (hex 4 n ++ rest) = some (n, rest) := by
  obtain ⟨e, rest, rfl⟩ := List.exists_cons_of_ne_nil hne
  have hvalue : ((n / 4096 * 16 + n / 256 % 16) * 16 + n / 16 % 16) * 16 + n % 16 = n := by omega
  rw [hex_four h]
  simp only [List.cons_append, List.nil_append, readUnit]
  rw [hexValue_digitChar (by omega), hexValue_digitChar (by omega), hexValue_digitChar (by omega),
    hexValue_digitChar (by omega)]
  dsimp only
  rw [hvalue]

theorem not_half (c : Char) : isHighHalf c.toNat = false ∧ isLowHalf c.toNat = false := by
  have hvalid : c.toNat < 0xD800 ∨ 0xDFFF < c.toNat ∧ c.toNat < 0x110000 := c.valid
  simp only [isHighHalf, isLowHalf, Bool.and_eq_false_iff, decide_eq_false_iff_not]
  omega

theorem unitChar_toNat (c : Char) : unitChar c.toNat = c := by
  obtain ⟨hhigh, hlow⟩ := not_half c
  rw [unitChar, hhigh, hlow]
  exact Char.ofNat_toNat c

theorem readEscapedUnit_basic (hc : c.toNat < 65536) (hne : rest ≠ []) :
    readEscapedUnit ('u' :: hex 4 c.toNat ++ rest) = .ok (c, rest) := by
  rw [readEscapedUnit, List.cons_append, List.drop_one, List.tail_cons, readUnit_hex hc hne]
  dsimp only
  split
  · rw [(not_half c).1, Bool.false_and, if_neg Bool.false_ne_true, unitChar_toNat]
  · rw [unitChar_toNat]

theorem readEscapedUnit_halves {high low : Nat} (hhigh : isHighHalf high = true)
    (hlow : isLowHalf low = true) (hne : rest ≠ []) :
    readEscapedUnit ('u' :: hex 4 high ++ '\\' :: 'u' :: (hex 4 low ++ rest)) =
      .ok (joinHalves high low, rest) := by
  have hbounds : high < 65536 ∧ low < 65536 := by
    simp only [isHighHalf, isLowHalf, Bool.and_eq_true, decide_eq_true_eq] at hhigh hlow
    omega
  have hlength : 6 < ('\\' :: 'u' :: (hex 4 low ++ rest)).length := by
    have := List.length_pos_iff.2 hne
    rw [hex_four hbounds.2]
    simp only [List.length_cons, List.length_append, List.length_nil]
    omega
  rw [readEscapedUnit, List.cons_append, List.drop_one, List.tail_cons,
    readUnit_hex hbounds.1 (List.cons_ne_nil _ _)]
  dsimp only
  split
  · next tail htail =>
    simp only [List.cons.injEq, true_and] at htail
    rw [hhigh, Bool.true_and, if_pos (by simpa using hlength), ← htail, readUnit_hex hbounds.2 hne]
    dsimp only
    rw [if_pos hlow]
  · next hother => exact absurd rfl (hother _)

theorem halves_of_beyond {k : Nat} (hc : c.toNat = 0x10000 + k) :
    isHighHalf (0xD800 + k / 1024) = true ∧ isLowHalf (0xDC00 + k % 1024) = true ∧
      joinHalves (0xD800 + k / 1024) (0xDC00 + k % 1024) = c := by
  have hvalid : c.toNat < 0xD800 ∨ 0xDFFF < c.toNat ∧ c.toNat < 0x110000 := c.valid
  simp only [isHighHalf, isLowHalf, Bool.and_eq_true, decide_eq_true_eq, joinHalves]
  have hcode : 0x10000 + (0xD800 + k / 1024 - 0xD800) * 1024 + (0xDC00 + k % 1024 - 0xDC00) =
      c.toNat := by omega
  refine ⟨by omega, by omega, ?_⟩
  rw [hcode, Char.ofNat_toNat]

theorem bind_cons (r : Except JsonError (List Char × List Char)) (c : Char) :
    (do
      let (s, rest) ← r
      return (c :: s, rest)) = r.map fun r => (c :: r.1, r.2) := by
  cases r <;> rfl

theorem readText_simple (start fuel : Nat) {e : Char} (hu : e ≠ 'u') (h : simpleEscape e = some c)
    (rest : List Char) : readText start (fuel + 1) ('\\' :: e :: rest) =
      (readText start fuel rest).map fun r => (c :: r.1, r.2) := by
  rw [readText]
  · rw [h]
    exact bind_cons _ _
  · exact hu

theorem readText_escapeChar (start fuel : Nat) (c : Char) (hne : rest ≠ []) :
    readText start (fuel + 1) (escapeChar c ++ rest) =
      (readText start fuel rest).map fun r => (c :: r.1, r.2) := by
  have hsimple {e : Char} (hu : e ≠ 'u') (h : simpleEscape e = some c) :=
    readText_simple start fuel hu h rest
  have hcode {n : Nat} (hn : n < 0xD800) (h : c.toNat = n) : Char.ofNat n = c := by
    rw [← h, Char.ofNat_toNat]
  unfold escapeChar
  split
  · next h =>
    apply hsimple
    · rintro rfl
      simp at h
    · rw [simpleEscape, if_pos (by simp_all)]
  · next hquote =>
    split
    · next h => exact hsimple (by decide) (by rw [h]; rfl)
    split
    · next h => exact hsimple (by decide) (by rw [h]; rfl)
    split
    · next h => exact hsimple (by decide) (by rw [h]; rfl)
    split
    · next h => exact hsimple (by decide) (congrArg some (hcode (by decide) h))
    split
    · next h => exact hsimple (by decide) (congrArg some (hcode (by decide) h))
    split
    · -- written as it is
      next h =>
      simp only [Bool.and_eq_true, decide_eq_true_eq] at h
      simp only [Bool.or_eq_true, decide_eq_true_eq, not_or] at hquote
      rw [List.singleton_append, readText]
      · rw [if_neg (by omega)]
        exact bind_cons _ _
      · exact hquote.1
      · exact hquote.2
    split
    · next h =>
      rw [List.cons_append, List.cons_append, readText, ← List.cons_append,
        readEscapedUnit_basic h hne]
      exact bind_cons _ _
    · next h =>
      obtain ⟨k, hk⟩ : ∃ k, c.toNat = 0x10000 + k := ⟨c.toNat - 0x10000, by omega⟩
      obtain ⟨hhigh, hlow, hjoin⟩ := halves_of_beyond hk
      rw [hk, Nat.add_sub_cancel_left]
      have hread := readEscapedUnit_halves hhigh hlow hne
      rw [hjoin] at hread
      simp only [List.cons_append, List.append_assoc] at hread ⊢
      rw [readText, hread]
      exact bind_cons _ _

theorem escapeChar_ne_nil (c : Char) : escapeChar c ≠ [] := by
  unfold escapeChar
  repeat' split
  all_goals exact List.cons_ne_nil _ _

theorem readText_escaped (start : Nat) (s rest : List Char) (h : s.length < fuel) :
    readText start fuel (s.flatMap escapeChar ++ '"' :: rest) = .ok (s, rest) := by
  induction s generalizing fuel with
  | nil =>
    obtain ⟨fuel, rfl⟩ := Nat.exists_eq_succ_of_ne_zero h.ne_bot
    rfl
  | cons c s ih =>
    obtain ⟨fuel, rfl⟩ := Nat.exists_eq_succ_of_ne_zero (Nat.ne_zero_of_lt h)
    rw [List.flatMap_cons, List.append_assoc,
      readText_escapeChar start fuel c
      (List.append_ne_nil_of_right_ne_nil _ (List.cons_ne_nil _ _)),
      ih (by simpa using h)]
    rfl

theorem length_le_escaped (s : List Char) : s.length ≤ (s.flatMap escapeChar).length := by
  induction s with
  | nil => exact Nat.le_refl _
  | cons c s ih =>
    have := List.length_pos_iff.2 (escapeChar_ne_nil c)
    rw [List.flatMap_cons, List.length_append, List.length_cons]
    omega

theorem toList_quote (s : String) :
    (quote s).toList = '"' :: (s.toList.flatMap escapeChar ++ ['"']) := by
  rw [quote, String.toList_ofList, List.cons_append]

theorem readText_quote (start : Nat) (s : String) (rest : List Char)
    (h : ((quote s).toList ++ rest).length ≤ fuel) :
      ∃ tail, (quote s).toList ++ rest = '"' :: tail ∧
      readText start fuel tail = .ok (s.toList, rest) := by
  have hlength := length_le_escaped s.toList
  rw [toList_quote] at h ⊢
  refine ⟨s.toList.flatMap escapeChar ++ '"' :: rest, by simp, ?_⟩
  simp only [List.length_append, List.length_cons, List.length_nil] at h
  exact readText_escaped start s.toList rest (by omega)

/-! ## Blanks between the parts -/

/-- A text of blanks only. -/
def IsGaps (cs : List Char) : Prop :=
  ∀ c ∈ cs, isGap c = true

/-- A text that does not start with a blank. -/
def NoGap (cs : List Char) : Prop :=
  ∀ c ∈ cs.head?, isGap c = false

theorem skipGap_append {cs : List Char} (hgaps : IsGaps gaps) (hcs : NoGap cs) :
    skipGap (gaps ++ cs) = cs := by
  rw [skipGap, (span_append hgaps hcs).2]

theorem isGaps_nil : IsGaps [] := by
  intro c h
  cases h

theorem isGaps_blank : IsGaps [' '] := by
  intro c h
  rw [List.mem_singleton.1 h]
  rfl

theorem skipGap_eq_self {cs : List Char} (h : NoGap cs) : skipGap cs = cs :=
  skipGap_append isGaps_nil h

theorem noGap_cons (h : isGap c = false) (cs : List Char) : NoGap (c :: cs) := by
  rintro _ ⟨⟩
  exact h

/-- What stands before, between and after items: blanks, and a comma between them. -/
theorem marks_eq (f : Layout) (level : Nat) :
    ∃ first between last : List Char, IsGaps first ∧ IsGaps between ∧ IsGaps last ∧
      f.marks level = (String.ofList first, String.ofList (',' :: between),
        String.ofList last) := by
  cases f with
  | line =>
    exact ⟨[], [' '], [], isGaps_nil, isGaps_blank, isGaps_nil, rfl⟩
  | indented w =>
    have hgap (n : Nat) : IsGaps ('\n' :: List.replicate (w * n) ' ') := by
      intro c h
      rcases List.mem_cons.1 h with rfl | h
      · rfl
      · rw [List.eq_of_mem_replicate h]
        rfl
    refine ⟨_, _, _, hgap (level + 1), hgap (level + 1), hgap level, ?_⟩
    have hline (cs : List Char) : "\n" ++ String.ofList cs = String.ofList ('\n' :: cs) := by
      rw [← String.toList_inj]
      simp
    have hcomma (cs : List Char) : "," ++ String.ofList cs = String.ofList (',' :: cs) := by
      rw [← String.toList_inj]
      simp
    simp only [Layout.marks, hline, hcomma]

/-! ## One part after the other -/

theorem ok_bind {α β : Type} (a : α) (k : α → Except JsonError β) : (Except.ok a >>= k) = k a := rfl

theorem error_bind {α β : Type} (e : JsonError) (k : α → Except JsonError β) :
    (Except.error e >>= k) = .error e := rfl

/-- Whether a character closes a list or an object. -/
def isClose (c : Char) : Bool :=
  c = ']' || c = '\x7d'

theorem isClose_ne (h : isClose c = true) :
    isGap c = false ∧ c ≠ ',' ∧ c.isDigit = false ∧ c ≠ '.' ∧ c ≠ 'e' ∧ c ≠ 'E' := by
  simp only [isClose, Bool.or_eq_true, decide_eq_true_eq] at h
  rcases h with rfl | rfl <;> decide

section

variable {α : Type} {part : List Char → Except JsonError (α × List Char)} {cs : List Char} {x : α}

theorem readParts_last (fuel : Nat) (hc : isClose c = true) (hgaps : IsGaps gaps)
    (h : part cs = .ok (x, gaps ++ c :: rest)) :
    readParts c part (fuel + 1) cs = .ok ([x], rest) := by
  rw [readParts, h, ok_bind]
  dsimp only
  rw [skipGap_append hgaps (noGap_cons (isClose_ne hc).1 _), List.head?_cons, if_pos rfl]
  rfl

theorem readParts_next (fuel : Nat) (hc : isClose c = true) (hgaps : IsGaps gaps)
    (hrest : NoGap rest) (h : part cs = .ok (x, ',' :: (gaps ++ rest))) :
    readParts c part (fuel + 1) cs = (readParts c part fuel rest).map fun r => (x :: r.1, r.2) := by
  have hcomma : some ',' ≠ some c := fun heq => (isClose_ne hc).2.1 (Option.some.inj heq).symm
  rw [readParts, h, ok_bind]
  dsimp only
  rw [skipGap_eq_self (noGap_cons rfl _), List.head?_cons, if_neg hcomma, if_pos rfl,
    List.tail_cons, skipGap_append hgaps hrest]
  cases readParts c part fuel rest <;> rfl

theorem readParts_open (fuel : Nat) (h : part cs = .ok (x, [])) :
    ∃ e, readParts c part (fuel + 1) cs = .error e := by
  rw [readParts, h]
  exact ⟨_, rfl⟩

theorem readParts_stopped (fuel : Nat) {e : JsonError} (h : part cs = .error e) :
    readParts c part (fuel + 1) cs = .error e := by
  rw [readParts, h, error_bind]

theorem readEnclosed_parts (total : Nat) (hfirst : IsGaps first) (hcs : NoGap cs)
    (hne : cs.head? ≠ some c) :
    readEnclosed total c part (first ++ cs) = readParts c part (total + 1) cs := by
  rw [readEnclosed, skipGap_append hfirst hcs]
  exact if_neg hne

end

theorem readField_named {value : List Char → Except JsonError (Json × List Char)} {total : Nat}
    (name : String) {cs : List Char} (hcs : NoGap cs)
    (hlen : ((quote name).toList ++ ':' :: ' ' :: cs).length ≤ total) :
    readField total value ((quote name).toList ++ ':' :: ' ' :: cs) =
      (value cs).map fun r => ((name, r.1), r.2) := by
  obtain ⟨tail, htail, hread⟩ := readText_quote
    ((quote name).toList ++ ':' :: ' ' :: cs).length name (':' :: ' ' :: cs) hlen
  rw [htail] at hread ⊢
  rw [readField, ← List.length_cons, hread, ok_bind]
  dsimp only
  rw [skipGap_eq_self (noGap_cons rfl _)]
  show (value (skipGap (' ' :: cs)) >>= fun r => pure ((String.ofList name.toList, r.1), r.2)) = _
  rw [show skipGap (' ' :: cs) = cs from skipGap_append isGaps_blank hcs, String.ofList_toList]
  cases value cs <;> rfl

/-! ## Reading a whole document -/

mutual

/-- How many levels of values a document has. -/
def depth : Json → Nat
  | .list items => depthItems items + 1
  | .fields fs => depthFields fs + 1
  | _ => 1

/-- The greatest depth of list items. -/
def depthItems : List Json → Nat
  | [] => 0
  | v :: vs => max v.depth (depthItems vs)

/-- The greatest depth of the values of fields. -/
def depthFields : List (String × Json) → Nat
  | [] => 0
  | (_, v) :: fs => max v.depth (depthFields fs)

end

mutual

/-- Whether every whole number of a document has a text. -/
def sized : Json → Bool
  | .whole n => (wholeText? n).isSome
  | .list items => sizedItems items
  | .fields fs => sizedFields fs
  | _ => true

/-- Whether every whole number of list items has a text. -/
def sizedItems : List Json → Bool
  | [] => true
  | v :: vs => v.sized && sizedItems vs

/-- Whether every whole number of fields has a text. -/
def sizedFields : List (String × Json) → Bool
  | [] => true
  | (_, v) :: fs => v.sized && sizedFields fs

end

theorem depth_pos (j : Json) : 0 < j.depth := by
  cases j <;> simp [depth]

theorem renderItems_eq (f : Layout) (level : Nat) (js : List Json) :
    renderItems f level js = js.map (renderAt f level) := by
  induction js with
  | nil => rfl
  | cons j js ih => rw [renderItems, ih, List.map_cons]

/-- The text of a field. -/
def renderField (f : Layout) (level : Nat) (e : String × Json) : String :=
  quote e.1 ++ ": " ++ renderAt f level e.2

theorem renderFields_eq (f : Layout) (level : Nat) (fs : List (String × Json)) :
    renderFields f level fs = fs.map (renderField f level) := by
  induction fs with
  | nil => rfl
  | cons e fs ih =>
    obtain ⟨k, v⟩ := e
    rw [renderFields, ih, List.map_cons]
    rfl

theorem toList_renderField (f : Layout) (level : Nat) (e : String × Json) :
    (renderField f level e).toList = (quote e.1).toList ++ ':' :: ' ' ::
      (renderAt f level e.2).toList := by
  simp [renderField, String.toList_append]

theorem toList_intercalate (between : List Char) (t u : String) (ts : List String) :
    (String.intercalate (String.ofList between) (t :: u :: ts)).toList =
      t.toList ++ (between ++ (String.intercalate (String.ofList between) (u :: ts)).toList) := by
  simp only [String.intercalate_cons_cons, String.toList_append, String.toList_ofList,
    List.append_assoc]

theorem words_eq : words =
    [(['n', 'u', 'l', 'l'], .null), (['t', 'r', 'u', 'e'], .bool true),
      (['f', 'a', 'l', 's', 'e'], .bool false), (['N', 'a', 'N'], .real notANumber),
      (['I', 'n', 'f', 'i', 'n', 'i', 't', 'y'], .real (infinity false)),
      (['-', 'I', 'n', 'f', 'i', 'n', 'i', 't', 'y'], .real (infinity true))] := by
  have hnull : "null".toList = ['n', 'u', 'l', 'l'] := rfl
  have htrue : "true".toList = ['t', 'r', 'u', 'e'] := rfl
  have hfalse : "false".toList = ['f', 'a', 'l', 's', 'e'] := rfl
  have hnan : "NaN".toList = ['N', 'a', 'N'] := rfl
  have hinf : "Infinity".toList = ['I', 'n', 'f', 'i', 'n', 'i', 't', 'y'] := rfl
  have hneg : "-Infinity".toList = ['-', 'I', 'n', 'f', 'i', 'n', 'i', 't', 'y'] := rfl
  rw [words, hnull, htrue, hfalse, hnan, hinf, hneg]

variable {w : List Char × Json} {cs : List Char}

theorem readWord_words (h : w ∈ words) (rest : List Char) :
    readWord (w.1 ++ rest) = some (w.2, rest) := by
  rw [readWord, words_eq]
  simp only [words_eq, List.mem_cons, List.not_mem_nil, or_false] at h
  rcases h with rfl | rfl | rfl | rfl | rfl | rfl <;> rfl

/-- A value that is no text, list or object is a word or a number. -/
theorem readValue_plain (total depth : Nat) {cs : List Char} (h : c ≠ '"' ∧ c ≠ '\x7b' ∧ c ≠ '[') :
    readValue total (depth + 1) (c :: cs) =
      match readWord (c :: cs) with
      | some r => .ok r
      | none => readNumber (c :: cs) := by
  rw [readValue.eq_def]
  dsimp only
  split
  · next heq => cases heq
  · next heq =>
    cases heq
    exact absurd rfl h.1
  · next heq =>
    cases heq
    exact absurd rfl h.2.1
  · next heq =>
    cases heq
    exact absurd rfl h.2.2
  · rfl

theorem readValue_word (total depth : Nat) (h : w ∈ words) (rest : List Char) :
    readValue total (depth + 1) (w.1 ++ rest) = .ok (w.2, rest) := by
  have hread := readWord_words h rest
  have hhead : ∃ c cs, w.1 = c :: cs ∧ c ≠ '"' ∧ c ≠ '\x7b' ∧ c ≠ '[' := by
    simp only [words_eq, List.mem_cons, List.not_mem_nil, or_false] at h
    rcases h with rfl | rfl | rfl | rfl | rfl | rfl <;> exact ⟨_, _, rfl, by decide⟩
  obtain ⟨c, cs, hw, hc⟩ := hhead
  rw [hw, List.cons_append] at hread ⊢
  rw [readValue_plain total depth hc, hread]

/-- A value that starts with a digit or with a minus and a digit is a number. -/
theorem readValue_number (total depth : Nat) (neg : Bool) (hc : c.isDigit = true)
    (tail : List Char) :
    readValue total (depth + 1) ((if neg then ['-'] else []) ++ c :: tail) =
      readNumber ((if neg then ['-'] else []) ++ c :: tail) := by
  have hne {d : Char} (hd : d.isDigit = false) : c ≠ d := ne_of_decimal hc hd
  have hi : 'I' ≠ c := (hne (by decide)).symm
  have hn : 'n' ≠ c := (hne (by decide)).symm
  have ht : 't' ≠ c := (hne (by decide)).symm
  have hf : 'f' ≠ c := (hne (by decide)).symm
  have hN : 'N' ≠ c := (hne (by decide)).symm
  have hm : '-' ≠ c := (hne (by decide)).symm
  have hword : readWord ((if neg then ['-'] else []) ++ c :: tail) = none := by
    cases neg <;> simp [readWord, words_eq, List.isPrefixOf, hi, hn, ht, hf, hN, hm]
  cases neg with
  | true =>
    simp only [if_true, List.singleton_append] at hword ⊢
    rw [readValue_plain total depth (by decide), hword]
  | false =>
    simp only [Bool.false_eq_true, if_false, List.nil_append] at hword ⊢
    rw [readValue_plain total depth ⟨hne (by decide), hne (by decide), hne (by decide)⟩, hword]

/-- A text that starts with a character of ASCII that is neither a blank nor a closing mark. -/
def Starts (cs : List Char) : Prop :=
  ∃ c tail, cs = c :: tail ∧ isGap c = false ∧ isClose c = false ∧ c.toNat < 128

theorem Starts.noGap (h : Starts cs) : NoGap cs := by
  obtain ⟨c, tail, rfl, hc, -⟩ := h
  exact noGap_cons hc _

theorem Starts.head_ne (h : Starts cs) (hc : isClose c = true) : cs.head? ≠ some c := by
  obtain ⟨d, rest, rfl, -, hd, -⟩ := h
  rintro ⟨⟩
  exact absurd (hd.symm.trans hc) Bool.false_ne_true

theorem Starts.append (h : Starts cs) (rest : List Char) : Starts (cs ++ rest) := by
  obtain ⟨c, tail, rfl, hc⟩ := h
  exact ⟨c, tail ++ rest, rfl, hc⟩

theorem starts_of_digit (hc : c.isDigit = true) (tail : List Char) (neg : Bool) :
    Starts ((if neg then ['-'] else []) ++ c :: tail) := by
  have hrange := toNat_of_isDigit hc
  cases neg with
  | true => exact ⟨'-', c :: tail, rfl, by decide, by decide, by decide⟩
  | false =>
    have hne (d : Char) (hd : d.isDigit = false) : c ≠ d := ne_of_decimal hc hd
    refine ⟨c, tail, rfl, ?_, ?_, by omega⟩
    · simp [isGap, hne ' ', hne '\t', hne '\n', hne '\r']
    · simp [isClose, hne ']', hne '\x7d']

theorem starts_of_word (h : w ∈ words) : Starts w.1 := by
  simp only [words_eq, List.mem_cons, List.not_mem_nil, or_false] at h
  rcases h with rfl | rfl | rfl | rfl | rfl | rfl <;> exact ⟨_, _,
    rfl, by decide, by decide, by decide⟩

theorem written_cases (x : Float) :
    (∃ w ∈ words, (written structured x).toList = w.1 ∧ w.2 = .real x) ∨
      ∃ (neg : Bool) (n : Numeral), (written structured x).toList =
        (if neg then ['-'] else []) ++ n.chars ∧
        readFloat ((if neg then ['-'] else []) ++ n.chars) = some x := by
  rw [words_eq]
  cases hx : Binary.ofFloat x with
  | nan =>
    left
    refine ⟨(['N', 'a', 'N'], .real notANumber), by simp, ?_, congrArg Json.real (ofFloat_nan hx)⟩
    rw [written, hx]
    rfl
  | infinite neg =>
    left
    cases neg with
    | true =>
      refine ⟨(['-', 'I', 'n', 'f', 'i', 'n', 'i', 't', 'y'], .real (infinity true)), by simp, ?_,
        congrArg Json.real (ofFloat_infinite hx)⟩
      rw [written, hx]
      rfl
    | false =>
      refine ⟨(['I', 'n', 'f', 'i', 'n', 'i', 't', 'y'], .real (infinity false)), by simp, ?_,
        congrArg Json.real (ofFloat_infinite hx)⟩
      rw [written, hx]
      rfl
  | finite neg m q =>
    right
    obtain ⟨n, htext, hread⟩ := written_finite hx
    exact ⟨neg, n, by rw [htext, String.toList_ofList], hread⟩

theorem render_null (f : Layout) (level : Nat) :
    ∃ w ∈ words, (renderAt f level .null).toList = w.1 ∧ w.2 = .null :=
  ⟨_, .head _, by rw [renderAt], rfl⟩

theorem render_bool (f : Layout) (level : Nat) (b : Bool) :
    ∃ w ∈ words, (renderAt f level (.bool b)).toList = w.1 ∧ w.2 = .bool b := by
  cases b with
  | true => exact ⟨_, .tail _ (.head _), by rw [renderAt, if_pos rfl], rfl⟩
  | false =>
    exact ⟨_, .tail _ (.tail _ (.head _)), by rw [renderAt, if_neg Bool.false_ne_true], rfl⟩

theorem toList_wholeText (n : Int) : ∃ d ds, d.isDigit = true ∧
    (wholeText n).toList = (if decide (n < 0) then ['-'] else []) ++ d :: ds := by
  obtain ⟨d, ds, hds⟩ := List.exists_cons_of_ne_nil (Nat.toDigits_ne_nil (b := 10) (n := n.natAbs))
  refine ⟨d, ds, isDigit_of_mem_digits (n := n.natAbs) (by rw [digits, hds]; simp), ?_⟩
  simp only [wholeText, String.toList_ofList, digits, hds, decide_eq_true_eq]

theorem enclose_starts (f : Layout) (level : Nat) {left : String} (h : Starts left.toList)
    (right : String) (parts : List String) : Starts (f.enclose level left right parts).toList := by
  unfold Layout.enclose
  split
  · rw [String.toList_append]
    exact h.append _
  · simp only [String.toList_append, List.append_assoc]
    exact h.append _

theorem renderAt_starts (f : Layout) (level : Nat) (j : Json) :
    Starts (renderAt f level j).toList := by
  cases j with
  | null =>
    obtain ⟨w, hw, htext, -⟩ := render_null f level
    rw [htext]
    exact starts_of_word hw
  | bool b =>
    obtain ⟨w, hw, htext, -⟩ := render_bool f level b
    rw [htext]
    exact starts_of_word hw
  | whole n =>
    obtain ⟨d, ds, hd, htext⟩ := toList_wholeText n
    rw [renderAt, htext]
    exact starts_of_digit hd ds _
  | real x =>
    rw [renderAt]
    rcases written_cases x with ⟨w, hw, htext, -⟩ | ⟨neg, n, htext, -⟩
    · rw [htext]
      exact starts_of_word hw
    · obtain ⟨c, tail, hchars, hc⟩ := n.exists_chars
      rw [htext, hchars]
      exact starts_of_digit hc tail neg
  | text t =>
    rw [renderAt, toList_quote]
    exact ⟨_, _, rfl, by decide, by decide, by decide⟩
  | list items =>
    rw [renderAt]
    exact enclose_starts f level ⟨'[', [], rfl, by decide, by decide, by decide⟩ _ _
  | fields fs =>
    rw [renderAt]
    exact enclose_starts f level ⟨'\x7b', [], rfl, by decide, by decide, by decide⟩ _ _

theorem renderField_starts (f : Layout) (level : Nat) (e : String × Json) :
    Starts (renderField f level e).toList := by
  rw [toList_renderField, toList_quote]
  exact ⟨_, _, rfl, by decide, by decide, by decide⟩

theorem ended_cons (h : c.isDigit = false ∧ c ≠ '.' ∧ c ≠ 'e' ∧ c ≠ 'E')
    (rest : List Char) : Ended (c :: rest) := by
  rintro _ ⟨⟩
  exact h

theorem ended_gaps (hgaps : IsGaps gaps)
    (h : c.isDigit = false ∧ c ≠ '.' ∧ c ≠ 'e' ∧ c ≠ 'E') (rest : List Char) :
    Ended (gaps ++ c :: rest) := by
  cases gaps with
  | nil => exact ended_cons h rest
  | cons g gaps =>
    refine ended_cons ?_ _
    have hg := hgaps g List.mem_cons_self
    simp only [isGap, Bool.or_eq_true, decide_eq_true_eq] at hg
    rcases hg with ((rfl | rfl) | rfl) | rfl <;> decide

theorem readValue_whole (total depth : Nat) {n : Int} (hsized : (wholeText? n).isSome = true)
    (h : Ended rest) :
    readValue total (depth + 1) ((wholeText n).toList ++ rest) = .ok (.whole n, rest) := by
  have hsize : (digits n.natAbs).length ≤ maxDigits := by
    rw [wholeText?_eq] at hsized
    by_contra hlong
    rw [if_neg hlong] at hsized
    cases hsized
  have hread := readNumber_wholeText hsize h
  obtain ⟨d, ds, hd, htext⟩ := toList_wholeText n
  rw [htext, List.append_assoc, List.cons_append] at hread ⊢
  rw [readValue_number total depth _ hd, hread]

theorem readValue_real (total depth : Nat) (x : Float) (h : Ended rest) :
    readValue total (depth + 1) ((written structured x).toList ++ rest) = .ok (.real x, rest) := by
  rcases written_cases x with ⟨w, hw, htext, hx⟩ | ⟨neg, n, htext, hfloat⟩
  · rw [htext, readValue_word total depth hw rest, hx]
  · have hread := readNumber_numeral neg n hfloat h
    obtain ⟨c, tail, hchars, hc⟩ := n.exists_chars
    rw [htext]
    rw [hchars, List.append_assoc, List.cons_append] at hread ⊢
    rw [readValue_number total depth neg hc, hread]

/-- What it takes to read a part from its text, whatever follows. -/
def ReadsBack {α : Type} (part : List Char → Except JsonError (α × List Char)) (total : Nat)
    (text : List Char) (x : α) : Prop :=
  ∀ rest, Ended rest → (text ++ rest).length ≤ total → part (text ++ rest) = .ok (x, rest)

theorem ReadsBack.field {value : List Char → Except JsonError (Json × List Char)} {total : Nat}
    {f : Layout} {level : Nat} {e : String × Json}
    (h : ReadsBack value total (renderAt f level e.2).toList e.2) :
    ReadsBack (readField total value) total (renderField f level e).toList e := by
  intro rest hrest hlen
  rw [toList_renderField, List.append_assoc, List.cons_append, List.cons_append] at hlen ⊢
  have hshort : ((renderAt f level e.2).toList ++ rest).length ≤ total := by
    rw [List.length_append, List.length_cons, List.length_cons] at hlen
    omega
  rw [readField_named e.1 ((renderAt_starts f level e.2).append rest).noGap hlen,
    h rest hrest hshort]
  rfl

section

variable {α : Type} {part : List Char → Except JsonError (α × List Char)} {total : Nat}
  {text : α → String}
  {xs : List α} (hpart : ∀ x ∈ xs, Starts (text x).toList ∧ ReadsBack part total (text x).toList x)

include hpart

omit hpart in
theorem intercalate_starts (between : List Char) {t : String} (h : Starts t.toList)
    (ts : List String) : Starts (String.intercalate (String.ofList between) (t :: ts)).toList := by
  cases ts with
  | nil => rwa [String.intercalate_singleton]
  | cons u ts =>
    rw [toList_intercalate]
    exact h.append _

/-- Parts are read from their texts when every part is. -/
theorem readParts_render (hc : isClose c = true) {between last : List Char}
    (hbetween : IsGaps between) (hlast : IsGaps last) (hne : xs ≠ []) (rest : List Char)
    {cs : List Char}
      (hcs : cs = (String.intercalate (String.ofList (',' :: between)) (xs.map text)).toList ++
        (last ++ c :: rest)) (hlen : cs.length ≤ total) (hfuel : cs.length < fuel) :
    readParts c part fuel cs = .ok (xs, rest) := by
  induction xs generalizing fuel cs with
  | nil => exact absurd rfl hne
  | cons x xs ih =>
    obtain ⟨fuel, rfl⟩ := Nat.exists_eq_add_one_of_ne_zero (Nat.ne_zero_of_lt hfuel)
    obtain ⟨⟨-, hx⟩, hxs⟩ := List.forall_mem_cons.1 hpart
    cases xs with
    | nil =>
      rw [List.map_singleton, String.intercalate_singleton] at hcs
      rw [hcs] at hlen hfuel ⊢
      exact readParts_last fuel hc hlast (hx _ (ended_gaps hlast (isClose_ne hc).2.2 rest) hlen)
    | cons y xs =>
      have hnext := ((intercalate_starts (',' :: between) (hxs y List.mem_cons_self).1
        (xs.map text)).append (last ++ c :: rest)).noGap
      rw [List.map_cons, List.map_cons, toList_intercalate, List.append_assoc, List.append_assoc,
        List.cons_append] at hcs
      rw [hcs] at hlen hfuel ⊢
      have hmore : readParts c part fuel ((String.intercalate (String.ofList (',' :: between))
          ((y :: xs).map text)).toList ++ (last ++ c :: rest)) = .ok (y :: xs, rest) := by
        simp only [List.length_append, List.length_cons] at hlen hfuel
        refine ih hxs (List.cons_ne_nil _ _) rfl ?_ ?_ <;>
          simp only [List.map_cons, List.length_append, List.length_cons] <;> omega
      rw [readParts_next fuel hc hbetween hnext (hx _ (ended_cons (by decide) _) hlen)]
      exact congrArg (Except.map fun r => (x :: r.1, r.2)) hmore

/-- What is enclosed is read from its text, after the mark that opens it. -/
theorem readEnclosed_render (hc : isClose c = true) (f : Layout) (level : Nat) (left : Char) :
    ∃ inner, (f.enclose level (String.ofList [left]) (String.ofList [c]) (xs.map text)).toList =
        left :: inner ∧
      ∀ rest, (inner ++ rest).length ≤ total → readEnclosed total c part (inner ++ rest) =
        .ok (xs, rest) := by
  obtain ⟨first, between, last, hfirst, hbetween, hlast, hmarks⟩ := marks_eq f level
  cases xs with
  | nil =>
    refine ⟨[c], by simp [Layout.enclose], fun rest _ => ?_⟩
    rw [readEnclosed, List.singleton_append, skipGap_eq_self (noGap_cons (isClose_ne hc).1 _)]
    exact if_pos rfl
  | cons x xs =>
    have hx := (List.forall_mem_cons.1 hpart).1.1
    have hstart (tail : List Char) : Starts ((String.intercalate (String.ofList (',' :: between))
        ((x :: xs).map text)).toList ++ tail) := (intercalate_starts _ hx _).append tail
    refine ⟨first ++
      ((String.intercalate (String.ofList (',' :: between)) ((x :: xs).map text)).toList ++
      (last ++ [c])), ?_, fun rest hlen => ?_⟩
    · rw [Layout.enclose, if_neg (by simp), hmarks]
      simp [String.toList_append]
    · simp only [List.append_assoc, List.singleton_append, List.length_append] at hlen ⊢
      rw [readEnclosed_parts total hfirst (hstart _).noGap ((hstart _).head_ne hc)]
      have hshort :
          ((String.intercalate (String.ofList (',' :: between)) ((x :: xs).map text)).toList ++
          (last ++ c :: rest)).length ≤ total := by
        simp only [List.length_append]
        omega
      exact readParts_render hpart hc hbetween hlast (List.cons_ne_nil x xs) rest rfl hshort
        (Nat.lt_succ_of_le hshort)

end

theorem readValue_list (total depth : Nat) (cs : List Char) :
    readValue total (depth + 1) ('[' :: cs) =
      (readEnclosed total ']' (readValue total depth) cs).map fun r => (.list r.1, r.2) := by
  rw [readValue]
  cases readEnclosed total ']' (readValue total depth) cs <;> rfl

theorem readValue_object (total depth : Nat) (cs : List Char) :
    readValue total (depth + 1) ('\x7b' :: cs) =
      (readEnclosed total '\x7d' (readField total (readValue total depth)) cs).map fun r =>
        (.fields r.1, r.2) := by
  rw [readValue]
  cases readEnclosed total '\x7d' (readField total (readValue total depth)) cs <;> rfl

theorem depthItems_le_iff {d : Nat} : depthItems vs ≤ d ↔ ∀ v ∈ vs, v.depth ≤ d := by
  induction vs with
  | nil => simp [depthItems]
  | cons v vs ih => simp [depthItems, ih]

theorem depthFields_le_iff {d : Nat} : depthFields fs ≤ d ↔ ∀ e ∈ fs, e.2.depth ≤ d := by
  induction fs with
  | nil => simp [depthFields]
  | cons e fs ih =>
    obtain ⟨k, v⟩ := e
    simp [depthFields, ih]

theorem sizedItems_iff : sizedItems vs = true ↔ ∀ v ∈ vs, v.sized = true := by
  induction vs with
  | nil => simp [sizedItems]
  | cons v vs ih => simp [sizedItems, ih]

theorem sizedFields_iff : sizedFields fs = true ↔ ∀ e ∈ fs, e.2.sized = true := by
  induction fs with
  | nil => simp [sizedFields]
  | cons e fs ih =>
    obtain ⟨k, v⟩ := e
    simp [sizedFields, ih]

/-- A document is read back from its text, whatever follows, when its nesting is allowed. -/
theorem readValue_render (f : Layout) (total level : Nat) {depth : Nat} {j : Json}
    (hsized : j.sized = true) (hdepth : j.depth ≤ depth) :
    ReadsBack (readValue total depth) total (renderAt f level j).toList j := by
  induction depth generalizing j level with
  | zero => exact absurd hdepth (Nat.not_le.2 (depth_pos j))
  | succ depth ih =>
    intro rest hrest hlen
    cases j with
    | null =>
      obtain ⟨w, hw, htext, hnull⟩ := render_null f level
      rw [htext, readValue_word total depth hw rest, hnull]
    | bool b =>
      obtain ⟨w, hw, htext, hbool⟩ := render_bool f level b
      rw [htext, readValue_word total depth hw rest, hbool]
    | whole n =>
      rw [renderAt]
      exact readValue_whole total depth hsized hrest
    | real x =>
      rw [renderAt]
      exact readValue_real total depth x hrest
    | text t =>
      rw [renderAt] at hlen ⊢
      obtain ⟨tail, htail, hread⟩ := readText_quote
        ((quote t).toList ++ rest).length t rest hlen
      rw [htail] at hread ⊢
      rw [readValue, hread, ok_bind]
      dsimp only
      rw [String.ofList_toList]
      rfl
    | list items =>
      have hparts : ∀ v ∈ items, Starts (renderAt f (level + 1) v).toList ∧
          ReadsBack (readValue total depth) total (renderAt f (level + 1) v).toList v := by
        intro v hv
        rw [Json.depth] at hdepth
        rw [sized] at hsized
        exact ⟨renderAt_starts f _ v, ih _ (sizedItems_iff.1 hsized v hv)
          (depthItems_le_iff.1 (Nat.le_of_succ_le_succ hdepth) v hv)⟩
      obtain ⟨inner, htext, hread⟩ := readEnclosed_render hparts (c := ']') rfl f level '['
      rw [renderAt, renderItems_eq] at hlen ⊢
      rw [show "[" = String.ofList ['['] from rfl, show "]" = String.ofList [']'] from rfl, htext,
        List.cons_append] at hlen ⊢
      rw [readValue_list, hread rest (Nat.le_of_succ_le hlen)]
      rfl
    | fields fs =>
      have hparts : ∀ e ∈ fs, Starts (renderField f (level + 1) e).toList ∧
          ReadsBack (readField total (readValue total depth)) total
          (renderField f (level + 1) e).toList e := by
        intro e he
        rw [Json.depth] at hdepth
        rw [sized] at hsized
        exact ⟨renderField_starts f _ e, (ih _ (sizedFields_iff.1 hsized e he)
          (depthFields_le_iff.1 (Nat.le_of_succ_le_succ hdepth) e he)).field⟩
      obtain ⟨inner, htext, hread⟩ := readEnclosed_render hparts (c := '\x7d') rfl f level '\x7b'
      rw [renderAt, renderFields_eq] at hlen ⊢
      rw [show "\x7b" = String.ofList ['\x7b'] from rfl, show "\x7d" = String.ofList
        ['\x7d'] from rfl, htext, List.cons_append] at hlen ⊢
      rw [readValue_object, hread rest (Nat.le_of_succ_le hlen)]
      rfl

theorem read_render (f : Layout) {j : Json} (hsized : j.sized = true)
    (hdepth : j.depth ≤ nestingLimit) : read (render f j) = .ok j := by
  have hread := readValue_render f (render f j).toList.length 0 hsized hdepth []
    (by rintro _ ⟨⟩) (by rw [List.append_nil]; exact Nat.le_refl _)
  rw [List.append_nil] at hread
  obtain ⟨c, tail, htext, hc, -, hascii⟩ := renderAt_starts f 0 j
  have hmark : (some c == some (Char.ofNat 0xFEFF)) = false := by
    rw [beq_eq_false_iff_ne, ne_eq, Option.some.injEq]
    rintro rfl
    exact absurd hascii (by decide)
  rw [render] at hread ⊢
  rw [read, htext]
  rw [htext] at hread
  dsimp only
  rw [List.head?_cons, hmark, skipGap_eq_self (noGap_cons hc _), hread]
  rfl

end ScriptLang.Json
