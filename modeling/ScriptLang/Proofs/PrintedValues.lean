import ScriptLang.Proofs.StoredValues

/-!
# Printed values

A value that holds a document prints as the document is printed, with texts in quotes and the parts
of arrays and objects one after the other. This form tells documents apart: those that are printed
alike are the same (`printedTuple_inj`). The argument follows the text from the left. A word ends
where a mark comes that no word has in it, a text in quotes where its quote comes again, and the
rest is made of such parts.
-/

namespace ScriptLang.Json

open ScriptLang.Number ScriptLang.Text

/-! ## Texts in quotes -/

/-- The number that hexadecimal digits stand for. -/
def hexNumber (ds : List Char) : Nat :=
  ds.foldl (fun n c => 16 * n + (hexValue c).getD 0) 0

theorem hexNumber_toDigits (n : Nat) : hexNumber (Nat.toDigits 16 n) = n := by
  induction n using Nat.strongRecOn with
  | ind n ih =>
    by_cases h : n < 16
    · simp [Nat.toDigits_of_lt_base h, hexNumber, hexValue_digitChar h]
    · have hfront : hexNumber (Nat.toDigits 16 (n / 16)) = n / 16 := ih (n / 16) (by omega)
      rw [Nat.toDigits_of_base_le (by decide) (by omega), hexNumber, List.foldl_append]
      rw [hexNumber] at hfront
      rw [hfront, List.foldl_cons, List.foldl_nil, hexValue_digitChar (by omega), Option.getD_some]
      omega

theorem hexNumber_hex (width n : Nat) : hexNumber (hex width n) = n := by
  have hzeros (k : Nat) : (List.replicate k '0').foldl (fun n c => 16 * n + (hexValue c).getD 0)
      0 = 0 := by
    induction k with
    | zero => rfl
    | succ k ih => exact ih
  rw [hex, hexNumber, List.foldl_append, hzeros]
  exact hexNumber_toDigits n

theorem length_hex {width n : Nat} (hwidth : 0 < width) (h : n < 16 ^ width) :
    (hex width n).length = width := by
  have hlength : (Nat.toDigits 16 n).length ≤ width :=
    (Nat.length_toDigits_le_iff (by decide) hwidth).2 h
  rw [hex, List.length_append, List.length_replicate]
  omega

/-- The character after a backslash stands for. -/
def unescape : List Char → Option (Char × List Char)
  | [] => none
  | c :: rest =>
      if c = 'n' then some ('\n', rest)
      else if c = 'r' then some ('\r', rest)
      else if c = 't' then some ('\t', rest)
      else if c = 'x' then some (Char.ofNat (hexNumber (rest.take 2)), rest.drop 2)
      else if c = 'u' then some (Char.ofNat (hexNumber (rest.take 4)), rest.drop 4)
      else if c = 'U' then some (Char.ofNat (hexNumber (rest.take 8)), rest.drop 8)
      else some (c, rest)

/-- Reads one character of a text in quotes. -/
def unquote : List Char → Option (Char × List Char)
  | [] => none
  | c :: rest => if c = '\\' then unescape rest else some (c, rest)

def IsQuote (q : Char) : Prop :=
  q = '\'' ∨ q = '"'

theorem isQuote_quoteFor (cs : List Char) : IsQuote (quoteFor cs) := by
  unfold quoteFor
  split
  · exact .inr rfl
  · exact .inl rfl

theorem unquote_escape (width : Nat) (hwidth : 0 < width) {c : Char} (hc : c.toNat < 16 ^ width)
    (rest : List Char) :
    Char.ofNat (hexNumber ((hex width c.toNat ++ rest).take width)) = c ∧
      (hex width c.toNat ++ rest).drop width = rest := by
  have hlength := length_hex hwidth hc
  rw [List.take_left' hlength, List.drop_left' hlength, hexNumber_hex, Char.ofNat_toNat]
  exact ⟨rfl, rfl⟩

/-- The text of a character in quotes begins with a backslash, after which the character is read
back. -/
def Escapes (c : Char) (text : List Char) : Prop :=
  ∃ ds, text = '\\' :: ds ∧ ∀ rest, unescape (ds ++ rest) = some (c, rest)

theorem escapes_unprintable (c : Char) : Escapes c (escapeUnprintable c) := by
  unfold escapeUnprintable
  dsimp only
  split
  · next h => exact ⟨_, rfl, fun rest => by simp [unescape, unquote_escape 2 (by decide) h rest]⟩
  · split
    · next h => exact ⟨_, rfl, fun rest => by simp [unescape, unquote_escape 4 (by decide) h rest]⟩
    · have h : c.toNat < 16 ^ 8 := c.val.toNat_lt
      exact ⟨_, rfl, fun rest => by simp [unescape, unquote_escape 8 (by decide) h rest]⟩

theorem quoteChar_cases {q : Char} (hq : IsQuote q) (c : Char) :
    Escapes c (quoteChar q c) ∨ quoteChar q c = [c] ∧ c ≠ q ∧ c ≠ '\\' := by
  by_cases hself : c = q ∨ c = '\\'
  · have hchar : quoteChar q c = ['\\', c] := by simp [quoteChar, hself]
    have hplain : c = '\'' ∨ c = '"' ∨ c = '\\' := by
      rcases hself with rfl | rfl
      · exact hq.imp_right .inl
      · exact .inr (.inr rfl)
    refine .inl ⟨[c], hchar, fun rest => ?_⟩
    rcases hplain with rfl | rfl | rfl <;> rfl
  · obtain ⟨hcq, hslash⟩ := not_or.1 hself
    simp only [quoteChar, hcq, hslash, decide_false, Bool.or_self, Bool.false_eq_true, if_false]
    split
    · next h => exact .inl ⟨_, rfl, fun _ => by rw [h]; rfl⟩
    · split
      · next h => exact .inl ⟨_, rfl, fun _ => by rw [h]; rfl⟩
      · split
        · next h => exact .inl ⟨_, rfl, fun _ => by rw [h]; rfl⟩
        · split
          · exact .inr ⟨rfl, hcq, hslash⟩
          · exact .inl (escapes_unprintable c)

/-- A character in quotes is read back, whatever follows. -/
theorem unquote_quoteChar {q : Char} (hq : IsQuote q) (c : Char) (rest : List Char) :
    unquote (quoteChar q c ++ rest) = some (c, rest) := by
  rcases quoteChar_cases hq c with ⟨ds, hchar, hread⟩ | ⟨hchar, -, hslash⟩
  · rw [hchar]
    exact hread rest
  · simp [hchar, unquote, hslash]

/-- No character in quotes begins with the quote. -/
theorem quoteChar_begins {q : Char} (hq : IsQuote q) (c : Char) :
    ∃ d ds, quoteChar q c = d :: ds ∧ d ≠ q := by
  rcases quoteChar_cases hq c with ⟨ds, hchar, -⟩ | ⟨hchar, hcq, -⟩
  · exact ⟨_, ds, hchar, by rcases hq with rfl | rfl <;> decide⟩
  · exact ⟨c, [], hchar, hcq⟩

/-- Texts in quotes are told apart where the quote comes again. -/
theorem quoteChars_split {q : Char} (hq : IsQuote q) {cs ds r s : List Char}
    (h : cs.flatMap (quoteChar q) ++ q :: r = ds.flatMap (quoteChar q) ++ q :: s) :
    cs = ds ∧ r = s := by
  induction cs generalizing ds with
  | nil =>
    cases ds with
    | nil => exact ⟨rfl, (List.cons.inj h).2⟩
    | cons d ds =>
      obtain ⟨e, es, hbegin, hne⟩ := quoteChar_begins hq d
      rw [List.flatMap_cons, hbegin] at h
      exact absurd (List.cons.inj h).1.symm hne
  | cons c cs ih =>
    cases ds with
    | nil =>
      obtain ⟨e, es, hbegin, hne⟩ := quoteChar_begins hq c
      rw [List.flatMap_cons, hbegin] at h
      exact absurd (List.cons.inj h).1 hne
    | cons d ds =>
      rw [List.flatMap_cons, List.flatMap_cons, List.append_assoc, List.append_assoc] at h
      have hread := congrArg unquote h
      rw [unquote_quoteChar hq, unquote_quoteChar hq] at hread
      obtain ⟨rfl, hrest⟩ := Prod.mk.inj (Option.some.inj hread)
      obtain ⟨rfl, rfl⟩ := ih hrest
      exact ⟨rfl, rfl⟩

theorem toList_quoted (s : String) :
    (quoted s).toList = quoteFor s.toList :: (s.toList.flatMap (quoteChar (quoteFor s.toList)) ++
      [quoteFor s.toList]) := by
  rw [quoted, String.toList_ofList]
  rfl

theorem quoted_split {s t : String} {r r' : List Char}
    (h : (quoted s).toList ++ r = (quoted t).toList ++ r') : s = t ∧ r = r' := by
  rw [toList_quoted, toList_quoted, List.cons_append, List.cons_append] at h
  obtain ⟨hquote, hrest⟩ := List.cons.inj h
  rw [← hquote, List.append_assoc, List.append_assoc, List.singleton_append,
    List.singleton_append] at hrest
  obtain ⟨hchars, hr⟩ := quoteChars_split (isQuote_quoteFor _) hrest
  exact ⟨String.toList_inj.1 hchars, hr⟩

/-! ## Words -/

/-- Marks that come after a part of a printed value. -/
def isMark (c : Char) : Bool :=
  c = ',' || c = ':' || c = ']' || c = '\x7d' || c = ')'

/-- The text is at its end or goes on with a mark. -/
def AtMark (r : List Char) : Prop :=
  ∀ c ∈ r.head?, isMark c = true

theorem words_split {u v r s : List Char} (hu : ∀ c ∈ u, isMark c = false)
    (hv : ∀ c ∈ v, isMark c = false) (hr : AtMark r) (hs : AtMark s) (h : u ++ r = v ++ s) :
    u = v ∧ r = s := by
  have hspan {u r : List Char} (hu : ∀ c ∈ u, isMark c = false) (hr : AtMark r) :
      (u ++ r).takeWhile (fun c => !isMark c) = u ∧ (u ++ r).dropWhile (fun c => !isMark c) = r :=
    span_append (fun c hc => by rw [hu c hc]; rfl) (fun c hc => by rw [hr c hc]; rfl)
  have hfirst := hspan hu hr
  rw [h] at hfirst
  exact ⟨hfirst.1.symm.trans (hspan hv hs).1, hfirst.2.symm.trans (hspan hv hs).2⟩

/-- The words for what is no finite float. -/
theorem specialWords : "nan".toList = ['n', 'a', 'n'] ∧ "inf".toList = ['i', 'n', 'f'] ∧
    "-inf".toList = ['-', 'i', 'n', 'f'] ∧ "infinity".toList = ['i', 'n', 'f', 'i', 'n', 'i',
      't', 'y'] := by
  decide +kernel

theorem written_plain_finite {x : Float} {neg : Bool} {m : Nat} {q : Int}
    (h : Binary.ofFloat x = .finite neg m q) : written plain x = written structured x := by
  rw [written, written, h]
  rfl

/-- How a float is printed: as a word, or as a numeral. -/
theorem toList_written (x : Float) :
    (written plain x).toList ∈ [['n', 'a', 'n'], ['i', 'n', 'f'], ['-', 'i', 'n', 'f']] ∨
      ∃ (neg : Bool) (n : Numeral), (written plain x).toList = (if neg then ['-'] else []) ++
        n.chars := by
  obtain ⟨hnan, hinf, hneg, -⟩ := specialWords
  cases hx : Binary.ofFloat x with
  | nan =>
    left
    rw [written, hx]
    simp [plain, hnan]
  | infinite neg =>
    left
    rw [written, hx]
    cases neg <;> simp [plain, hinf]
  | finite neg m q =>
    right
    obtain ⟨n, htext, -⟩ := written_finite hx
    exact ⟨neg, n, by rw [written_plain_finite hx, htext, String.toList_ofList]⟩

/-- What a text of documents has for what is printed as a word. -/
def inDocument (cs : List Char) : List Char :=
  if cs = ['N', 'o', 'n', 'e'] then "null".toList
  else if cs = ['T', 'r', 'u', 'e'] then "true".toList
  else if cs = ['F', 'a', 'l', 's', 'e'] then "false".toList
  else if cs = ['n', 'a', 'n'] then structured.nan.toList
  else if cs = ['i', 'n', 'f'] then structured.infinite.toList
  else if cs = ['-', 'i', 'n', 'f'] then '-' :: structured.infinite.toList
  else cs

/-- Numbers are printed as they are in texts of documents. -/
theorem inDocument_number (neg : Bool) {d : Char} (hd : d.isDigit = true) (ds : List Char) :
    inDocument ((if neg then ['-'] else []) ++ d :: ds) = (if neg then ['-'] else []) ++
      d :: ds := by
  cases neg <;> simp [inDocument, ne_of_decimal hd]

theorem inDocument_written (x : Float) :
    inDocument (written plain x).toList = (written structured x).toList := by
  cases hx : Binary.ofFloat x with
  | nan =>
    rw [written, written, hx]
    rfl
  | infinite neg =>
    rw [written, written, hx]
    cases neg <;> decide +kernel
  | finite neg m q =>
    obtain ⟨n, htext, -⟩ := written_finite hx
    obtain ⟨d, ds, hchars, hd⟩ := n.exists_chars
    rw [written_plain_finite hx, htext, String.toList_ofList, hchars, inDocument_number neg hd]

/-! ## Documents -/

/-- The text of things one after the other. -/
def listed (texts : List (List Char)) : List Char :=
  [',', ' '].intercalate texts

theorem listed_cons (t : List Char) (ts : List (List Char)) :
    listed (t :: ts) = t ++ ts.flatMap fun u => ',' :: ' ' :: u := by
  induction ts generalizing t with
  | nil => simp [listed]
  | cons u us ih =>
    have hrest := ih u
    rw [listed] at hrest ⊢
    rw [List.intercalate_cons_cons, hrest]
    simp

mutual

/-- What is printed of a document. -/
def printed : Json → List Char
  | .null => ['N', 'o', 'n', 'e']
  | .bool b => if b then ['T', 'r', 'u', 'e'] else ['F', 'a', 'l', 's', 'e']
  | .whole n => (wholeText n).toList
  | .real x => (written plain x).toList
  | .text s => (quoted s).toList
  | .list js => '[' :: (listed (printedItems js) ++ [']'])
  | .fields fs => '\x7b' :: (listed (printedFields fs) ++ ['\x7d'])

def printedItems : List Json → List (List Char)
  | [] => []
  | j :: js => j.printed :: printedItems js

def printedFields : List (String × Json) → List (List Char)
  | [] => []
  | (name, j) :: fs => ((quoted name).toList ++ ':' :: ' ' :: j.printed) :: printedFields fs

end

theorem printedItems_eq (js : List Json) : printedItems js = js.map printed := by
  induction js with
  | nil => rfl
  | cons j js ih => rw [printedItems, ih, List.map_cons]

/-- What is printed of a field. -/
def printedField (f : String × Json) : List Char :=
  (quoted f.1).toList ++ ':' :: ' ' :: f.2.printed

theorem printedFields_eq (fs : List (String × Json)) : printedFields fs = fs.map printedField := by
  induction fs with
  | nil => rfl
  | cons f fs ih => rw [printedFields, ih, List.map_cons, printedField]

/-- The kinds of parts that a printed value has. -/
inductive Kind where
  | word | text | list | fields

def kind : Json → Kind
  | .null | .bool _ | .whole _ | .real _ => .word
  | .text _ => .text
  | .list _ => .list
  | .fields _ => .fields

/-- What is printed as a word is read back. -/
theorem readValue_printed {j : Json} (hkind : j.kind = .word) (hsized : j.sized = true) :
    readValue 0 1 (inDocument j.printed) = .ok (j, []) := by
  cases j with
  | null => exact readValue_word 0 0 (.head _) []
  | bool b =>
    cases b with
    | true => exact readValue_word 0 0 (.tail _ (.head _)) []
    | false => exact readValue_word 0 0 (.tail _ (.tail _ (.head _))) []
  | whole n =>
    have hread := readValue_whole 0 0 hsized (show Ended [] from nofun)
    obtain ⟨d, ds, hd, htext⟩ := toList_wholeText n
    rw [List.append_nil, htext] at hread
    rw [printed, htext, inDocument_number _ hd, hread]
  | real x =>
    have hread := readValue_real 0 0 x (show Ended [] from nofun)
    rwa [List.append_nil, ← inDocument_written] at hread
  | _ => contradiction

/-- The kind of a part is seen from its first character. -/
def kindFrom (c : Char) : Kind :=
  if c = '[' then .list else if c = '\x7b' then .fields else if c = '\'' ||
    c = '"' then .text else .word

/-- Characters that a word can have in it. -/
def inWord (c : Char) : Bool :=
  !isMark c && c ≠ '\'' && c ≠ '"' && c ≠ '[' && c ≠ '\x7b'

theorem kindFrom_inWord {c : Char} (h : inWord c = true) :
    isMark c = false ∧ kindFrom c = .word := by
  simp only [inWord, Bool.and_eq_true, Bool.not_eq_true', decide_eq_true_eq, ne_eq] at h
  obtain ⟨⟨⟨⟨hmark, hsingle⟩, hdouble⟩, hlist⟩, hfields⟩ := h
  simp [kindFrom, hmark, hsingle, hdouble, hlist, hfields]

theorem inWord_of_isDigit {c : Char} (h : c.isDigit = true) : inWord c = true := by
  simp [inWord, isMark, ne_of_decimal h]

theorem inWord_of_mem_printed {j : Json} (h : j.kind = .word) :
    ∀ c ∈ j.printed, inWord c = true := by
  intro c hc
  cases j with
  | null =>
    rw [printed] at hc
    fin_cases hc <;> rfl
  | bool b =>
    rw [printed] at hc
    cases b <;> fin_cases hc <;> rfl
  | whole n =>
    rw [printed, wholeText, String.toList_ofList, List.mem_append] at hc
    rcases hc with hc | hc
    · split at hc
      · rw [List.mem_singleton.1 hc]
        rfl
      · cases hc
    · exact inWord_of_isDigit (isDigit_of_mem_digits hc)
  | real x =>
    rw [printed] at hc
    rcases toList_written x with hword | ⟨neg, n, htext⟩
    · generalize (written plain x).toList = cs at hword hc
      simp only [List.mem_cons, List.not_mem_nil, or_false] at hword
      rcases hword with rfl | rfl | rfl <;> fin_cases hc <;> rfl
    · rw [htext, List.mem_append] at hc
      rcases hc with hc | hc
      · split at hc
        · rw [List.mem_singleton.1 hc]
          rfl
        · cases hc
      · rcases n.mem_chars hc with hc | hc
        · exact inWord_of_isDigit hc
        · fin_cases hc <;> rfl
  | _ => contradiction

/-! ## Telling documents apart -/

theorem printed_ne_nil {j : Json} (hkind : j.kind = .word) (hsized : j.sized = true) :
    j.printed ≠ [] := by
  intro hnil
  have hread := readValue_printed hkind hsized
  rw [hnil] at hread
  cases hread

theorem kindFrom_quoteFor (cs : List Char) :
    isMark (quoteFor cs) = false ∧ kindFrom (quoteFor cs) = .text := by
  rcases isQuote_quoteFor cs with hq | hq <;> rw [hq] <;> exact ⟨rfl, rfl⟩

/-- What is printed of a document begins with no mark, and the first character gives its kind. -/
theorem printed_begins {j : Json} (hsized : j.sized = true) :
    ∃ c cs, j.printed = c :: cs ∧ isMark c = false ∧ kindFrom c = j.kind := by
  cases hkind : j.kind with
  | word =>
    obtain ⟨c, cs, hprinted⟩ := List.exists_cons_of_ne_nil (printed_ne_nil hkind hsized)
    have hc : c ∈ j.printed := by
      rw [hprinted]
      exact List.mem_cons_self
    exact ⟨c, cs, hprinted, kindFrom_inWord (inWord_of_mem_printed hkind c hc)⟩
  | text =>
    cases j with
    | text s => exact ⟨_, _, toList_quoted s, kindFrom_quoteFor s.toList⟩
    | _ => contradiction
  | list =>
    cases j with
    | list js => exact ⟨'[', _, by rw [printed], rfl, rfl⟩
    | _ => contradiction
  | fields =>
    cases j with
    | fields fs => exact ⟨'\x7b', _, by rw [printed], rfl, rfl⟩
    | _ => contradiction

theorem kind_eq {j j' : Json} {r s : List Char} (hj : j.sized = true) (hj' : j'.sized = true)
    (h : j.printed ++ r = j'.printed ++ s) : j.kind = j'.kind := by
  obtain ⟨c, cs, hprinted, -, hkind⟩ := printed_begins hj
  obtain ⟨c', cs', hprinted', -, hkind'⟩ := printed_begins hj'
  rw [hprinted, hprinted'] at h
  rw [← hkind, ← hkind', (List.cons.inj h).1]

/-- The text of a thing ends where a mark comes: what is printed of others that are sized goes on
otherwise. -/
def Splits {α : Type} (size : α → Bool) (text : α → List Char) (x : α) : Prop :=
  ∀ (y : α) (r s : List Char), size y = true → AtMark r → AtMark s → text x ++ r = text y ++ s →
    x = y ∧ r = s

section Listed

variable {α : Type} {size : α → Bool} {text : α → List Char} {xs ys : List α} {close : Char}
  {r s : List Char}

theorem atMark_more (hclose : isMark close = true) (texts : List (List Char)) :
    AtMark (texts.flatMap (fun u => ',' :: ' ' :: u) ++ close :: r) := by
  intro c hc
  cases texts with
  | nil =>
    cases hc
    exact hclose
  | cons t ts =>
    cases hc
    rfl

theorem more_split (hclose : isMark close = true) (hcomma : close ≠ ',')
    (hxs : ∀ x ∈ xs, Splits size text x) (hys : ∀ y ∈ ys, size y = true)
    (h : (xs.map text).flatMap (fun u => ',' :: ' ' :: u) ++ close :: r =
      (ys.map text).flatMap (fun u => ',' :: ' ' :: u) ++ close :: s) : xs = ys ∧ r = s := by
  induction xs generalizing ys with
  | nil =>
    cases ys with
    | nil => exact ⟨rfl, (List.cons.inj h).2⟩
    | cons y ys => exact absurd (List.cons.inj h).1 hcomma
  | cons x xs ih =>
    cases ys with
    | nil => exact absurd (List.cons.inj h).1.symm hcomma
    | cons y ys =>
      rw [List.forall_mem_cons] at hxs hys
      simp only [List.map_cons, List.flatMap_cons, List.cons_append, List.append_assoc] at h
      obtain ⟨rfl, hrest⟩ := hxs.1 y _ _ hys.1 (atMark_more hclose _) (atMark_more hclose _)
        (List.cons.inj (List.cons.inj h).2).2
      obtain ⟨rfl, rfl⟩ := ih hxs.2 hys.2 hrest
      exact ⟨rfl, rfl⟩

/-- Things that are listed up to a closing mark are told apart, if none begins with a mark. -/
theorem listed_split (hclose : isMark close = true) (hcomma : close ≠ ',')
    (hxs : ∀ x ∈ xs, size x = true ∧ Splits size text x) (hys : ∀ y ∈ ys, size y = true)
    (hbegins : ∀ x, size x = true → ∃ c cs, text x = c :: cs ∧ isMark c = false)
    (h : listed (xs.map text) ++ close :: r = listed (ys.map text) ++ close :: s) :
    xs = ys ∧ r = s := by
  have hnot {x : α} (hx : size x = true) (t t' : List Char) : close :: t ≠ text x ++ t' := by
    obtain ⟨c, cs, htext, hc⟩ := hbegins x hx
    rw [htext]
    intro heq
    rw [(List.cons.inj heq).1, hc] at hclose
    cases hclose
  cases xs with
  | nil =>
    cases ys with
    | nil => exact ⟨rfl, (List.cons.inj h).2⟩
    | cons y ys =>
      rw [List.map_cons, listed_cons, List.append_assoc] at h
      exact absurd h (hnot (hys y List.mem_cons_self) _ _)
  | cons x xs =>
    cases ys with
    | nil =>
      rw [List.map_cons, listed_cons, List.append_assoc] at h
      exact absurd h.symm (hnot (hxs x List.mem_cons_self).1 _ _)
    | cons y ys =>
      rw [List.map_cons, List.map_cons, listed_cons, listed_cons] at h
      exact more_split hclose hcomma (fun x hx => (hxs x hx).2) hys
        (congrArg (fun t => ',' :: ' ' :: t) h)

end Listed

/-- Documents that are printed as words are told apart: a word is read back up to the next mark. -/
theorem word_splits {j : Json} (hkind : j.kind = .word) (hsized : j.sized = true) :
    Splits sized printed j := by
  intro j' r s hj' hr hs heq
  have hkind' : j'.kind = .word := (kind_eq hsized hj' heq).symm.trans hkind
  have hplain {j : Json} (h : j.kind = .word) (c : Char) (hc : c ∈ j.printed) : isMark c = false :=
    (kindFrom_inWord (inWord_of_mem_printed h c hc)).1
  obtain ⟨hprinted, hrest⟩ := words_split (hplain hkind) (hplain hkind') hr hs heq
  have hread := readValue_printed hkind hsized
  rw [hprinted, readValue_printed hkind' hj'] at hread
  cases hread
  exact ⟨rfl, hrest⟩

theorem field_begins (f : String × Json) : ∃ c cs, printedField f = c :: cs ∧ isMark c = false := by
  rw [printedField, toList_quoted]
  exact ⟨_, _, rfl, (kindFrom_quoteFor f.1.toList).1⟩

theorem field_splits {f : String × Json} (h : Splits sized printed f.2) :
    Splits (sized ·.2) printedField f := by
  intro g r s hg hr hs heq
  simp only [printedField, List.append_assoc, List.cons_append] at heq
  obtain ⟨hname, hrest⟩ := quoted_split heq
  obtain ⟨hvalue, hrest⟩ := h g.2 r s hg hr hs (List.cons.inj (List.cons.inj hrest).2).2
  exact ⟨Prod.ext hname hvalue, hrest⟩

/-- What is printed of documents is told apart as far as it goes. -/
theorem printed_splits {j : Json} (hj : j.sized = true) : Splits sized printed j := by
  -- by induction on the document: its parts are told apart
  induction hn : sizeOf j using Nat.strongRecOn generalizing j with
  | ind n ih =>
    subst hn
    intro j' r s hj' hr hs heq
    have hkind := kind_eq hj hj' heq
    cases j with
    | null | bool _ | whole _ | real _ => exact word_splits rfl hj j' r s hj' hr hs heq
    | text t =>
      cases j' with
      | text t' =>
        obtain ⟨rfl, rfl⟩ := quoted_split heq
        exact ⟨rfl, rfl⟩
      | _ => cases hkind
    | list js =>
      cases j' with
      | list js' =>
        rw [sized, sizedItems_iff] at hj hj'
        have hitems : ∀ j ∈ js, j.sized = true ∧ Splits sized printed j := by
          intro j hmem
          have := List.sizeOf_lt_of_mem hmem
          exact ⟨hj j hmem, ih _ (by simp; omega) (hj j hmem) rfl⟩
        simp only [printed, printedItems_eq, List.cons_append, List.append_assoc,
          List.nil_append] at heq
        have hbegins (j : Json) (hj : j.sized = true) : ∃ c cs, j.printed = c :: cs ∧
            isMark c = false := by
          obtain ⟨c, cs, hprinted, hmark, -⟩ := printed_begins hj
          exact ⟨c, cs, hprinted, hmark⟩
        obtain ⟨rfl, rfl⟩ := listed_split rfl (by decide) hitems hj' hbegins (List.cons.inj heq).2
        exact ⟨rfl, rfl⟩
      | _ => cases hkind
    | fields fs =>
      cases j' with
      | fields fs' =>
        rw [sized, sizedFields_iff] at hj hj'
        have hfields : ∀ f ∈ fs, f.2.sized = true ∧ Splits (sized ·.2) printedField f := by
          rintro ⟨name, j⟩ hf
          have := List.sizeOf_lt_of_mem hf
          exact ⟨hj _ hf, field_splits (ih _ (by simp at this ⊢; omega) (hj _ hf) rfl)⟩
        simp only [printed, printedFields_eq, List.cons_append, List.append_assoc,
          List.nil_append] at heq
        obtain ⟨rfl, rfl⟩ := listed_split rfl (by decide) hfields hj' (fun f _ => field_begins f)
          (List.cons.inj heq).2
        exact ⟨rfl, rfl⟩
      | _ => cases hkind

/-- How a tuple goes on after its first part: one of a single part has a comma. -/
def tupleRest : List Json → List Char
  | [] => [',', ')']
  | j :: js => ((j :: js).map printed).flatMap (fun u => ',' :: ' ' :: u) ++ [')']

/-- What is printed of a tuple of documents. -/
def printedTuple : List Json → List Char
  | [] => ['(', ')']
  | j :: js => '(' :: (j.printed ++ tupleRest js)

theorem atMark_tupleRest (js : List Json) : AtMark (tupleRest js) := by
  intro c hc
  cases js <;> cases hc <;> rfl

theorem tupleRest_inj {js js' : List Json} (hjs : ∀ j ∈ js, j.sized = true)
    (hjs' : ∀ j ∈ js', j.sized = true) (h : tupleRest js = tupleRest js') : js = js' := by
  cases js with
  | nil =>
    cases js' with
    | nil => rfl
    | cons j' js' => cases (List.cons.inj (List.cons.inj h).2).1
  | cons j js =>
    cases js' with
    | nil => cases (List.cons.inj (List.cons.inj h).2).1
    | cons j' js' =>
      exact (more_split rfl (by decide) (fun j hj => printed_splits (hjs j hj)) hjs' h).1

/-- Tuples of documents that are printed alike are the same. -/
theorem printedTuple_inj {js js' : List Json} (hjs : ∀ j ∈ js, j.sized = true)
    (hjs' : ∀ j ∈ js', j.sized = true) (h : printedTuple js = printedTuple js') : js = js' := by
  have hbegins {j : Json} (hj : j.sized = true) (r : List Char) : [')'] ≠ j.printed ++ r := by
    obtain ⟨c, cs, hprinted, hmark, -⟩ := printed_begins hj
    rw [hprinted]
    intro heq
    rw [← (List.cons.inj heq).1] at hmark
    cases hmark
  cases js with
  | nil =>
    cases js' with
    | nil => rfl
    | cons j' js' => exact absurd (List.cons.inj h).2 (hbegins (hjs' j' List.mem_cons_self) _)
  | cons j js =>
    rw [List.forall_mem_cons] at hjs
    cases js' with
    | nil => exact absurd (List.cons.inj h).2.symm (hbegins hjs.1 _)
    | cons j' js' =>
      rw [List.forall_mem_cons] at hjs'
      obtain ⟨rfl, hrest⟩ := printed_splits hjs.1 j' _ _ hjs'.1 (atMark_tupleRest js)
        (atMark_tupleRest js') (List.cons.inj h).2
      rw [tupleRest_inj hjs.2 hjs'.2 hrest]

end ScriptLang.Json

namespace ScriptLang

open ScriptLang.Number ScriptLang.Text

/-! ## Values that hold documents -/

theorem ofList_bracketed {left right : String} {a b : Char} (hleft : left.toList = [a])
    (hright : right.toList = [b]) (ts : List (List Char)) :
    bracketed left right (ts.map String.ofList) = String.ofList (a :: (Json.listed ts ++ [b])) := by
  have hcomma : ", ".toList = [',', ' '] := by decide
  apply String.toList_inj.1
  simp [bracketed, Json.listed, String.toList_intercalate, hleft, hright, hcomma, Function.comp_def]

theorem written_notANumber : written plain notANumber = "nan" := by
  have hnan : Binary.ofFloat notANumber = .nan := by decide +kernel
  rw [written, hnan]
  rfl

/-- Prints an entry of an object. -/
def quoteEntry (quote : Value → Except Fault String) (e : Value × Value) : Except Fault String := do
  return (← quote e.1) ++ ": " ++ (← quote e.2)

theorem quoteEntry_ok {quote : Value → Except Fault String} {f : String × Json} {e : Value × Value}
    (hkey : quote e.1 = .ok (String.ofList (Json.text f.1).printed))
    (hvalue : quote e.2 = .ok (String.ofList f.2.printed)) :
    quoteEntry quote e = .ok (String.ofList (Json.printedField f)) := by
  have hcolon : ": ".toList = [':', ' '] := by decide
  have hentry : quoteEntry quote e =
      .ok (String.ofList (Json.text f.1).printed ++ ": " ++ String.ofList f.2.printed) := by
    rw [quoteEntry, hkey, hvalue]
    rfl
  rw [hentry]
  refine congrArg Except.ok (String.toList_inj.1 ?_)
  simp [Json.printedField, Json.printed, hcolon]

/-- A value prints as the document that it holds is printed. -/
theorem Setting.quote_eq {w : Setting} {d : Nat} {seen : List Loc} {j : Json} {v : Value}
    (hv : w.heap.Holds j v) (hfits : Json.Fits d j) (hseen : ∀ l ∈ seen, w.heap.HoldsDeeper j l) :
    w.quote d seen v = .ok (String.ofList j.printed) := by
  induction d generalizing j v seen with
  | zero => exact absurd hfits.depth (Nat.not_le.2 (Json.depth_pos j))
  | succ d ih =>
    have hsize := hfits.sized
    rw [quote.eq_def]
    cases hv with
    | null => rfl
    | bool b => cases b <;> rfl
    | whole n =>
      rw [Json.sized] at hsize
      obtain ⟨t, ht⟩ := Option.isSome_iff_exists.1 hsize
      have htext : t = wholeText n := by
        rw [wholeText?_eq] at ht
        split at ht
        · exact (Option.some.inj ht).symm
        · cases ht
      dsimp only
      rw [ht, htext, Json.printed, String.ofList_toList]
    | real x =>
      dsimp only
      rw [Json.printed, String.ofList_toList]
    | nan tag =>
      dsimp only
      rw [Json.printed, String.ofList_toList, written_notANumber]
      rfl
    | text s =>
      dsimp only
      rw [Json.printed, String.ofList_toList]
    | @list l js xs cell items =>
      have hv : w.heap.Holds (.list js) (.array l) := .list cell items
      have hitems : xs.toList.mapM (w.quote d (l :: seen)) =
          .ok ((js.map Json.printed).map String.ofList) := by
        rw [mapM_ok_iff, List.map_map, List.forall₂_map_right_iff]
        refine (forall₂_imp_mem items fun j hj v hheld => ?_).flip
        exact ih hheld (hfits.of_list j hj)
          (Heap.holdsDeeper_cons (.inl hv) hseen (Json.depth_lt_list hj))
      dsimp only
      rw [if_neg (Heap.not_seen (.inl hv) hseen), Heap.items_eq cell, hitems]
      show Except.ok (bracketed "[" "]" _) = _
      rw [ofList_bracketed (a := '[') (b := ']') (by decide) (by decide), Json.printed,
        Json.printedItems_eq]
    | @fields l fs es cell distinct keys values =>
      have hv : w.heap.Holds (.fields fs) (.object l) := .fields cell distinct keys values
      have hentries : es.mapM (quoteEntry (w.quote d (l :: seen))) =
          .ok ((fs.map Json.printedField).map String.ofList) := by
        have hheld := Heap.forall₂_holdsField.2 ⟨keys, values⟩
        rw [mapM_ok_iff, List.map_map, List.forall₂_map_right_iff]
        refine (forall₂_imp_mem hheld fun f hf e he => ?_).flip
        have hpart {j : Json} (hj : j.depth ≤ f.2.depth) :
            ∀ k ∈ l :: seen, w.heap.HoldsDeeper j k :=
          Heap.holdsDeeper_cons (.inr hv) hseen (hj.trans_lt (Json.depth_lt_fields hf))
        have hvalue := hfits.of_fields f hf
        have hname : Json.Fits d (.text f.1) := ⟨(Json.depth_pos f.2).trans_le hvalue.depth, rfl⟩
        refine quoteEntry_ok ?_ (ih he.value hvalue (hpart le_rfl))
        rw [he.key]
        exact ih (.text f.1) hname (hpart (Json.depth_pos f.2))
      dsimp only
      rw [if_neg (Heap.not_seen (.inr hv) hseen), Heap.entries_eq cell]
      refine (congrArg (· >>= _) hentries).trans ?_
      show Except.ok (bracketed "\x7b" "\x7d" _) = _
      rw [ofList_bracketed (a := '\x7b') (b := '\x7d') (by decide) (by decide), Json.printed,
        Json.printedFields_eq]

/-- The text of a tuple of values that hold documents. -/
theorem Setting.text_tuple {w : Setting} {js : List Json} {vs : List Value}
    (hvs : List.Forall₂ w.heap.Holds js vs) (hfits : ∀ j ∈ js, Json.Fits (valueDepth - 1) j) :
    w.text (.tuple vs) = .ok (String.ofList (Json.printedTuple js)) := by
  have hopen : "(".toList = ['('] := by decide
  have hclose : ")".toList = [')'] := by decide
  have hone : ",)".toList = [',', ')'] := by decide
  have hpart {j : Json} {v : Value} (hj : j ∈ js) (hv : w.heap.Holds j v) :
      w.quote (valueDepth - 1) [] v = .ok (String.ofList j.printed) :=
    quote_eq hv (hfits j hj) (by simp)
  have hparts : vs.mapM (w.quote (valueDepth - 1) []) =
      .ok ((js.map Json.printed).map String.ofList) := by
    rw [mapM_ok_iff, List.map_map, List.forall₂_map_right_iff]
    exact (forall₂_imp_mem hvs fun j hj v hv => hpart hj hv).flip
  show w.quote (valueDepth - 1 + 1) [] (.tuple vs) = _
  cases hvs with
  | nil => rfl
  | @cons j v js vs hv hrest =>
    cases hrest with
    | nil =>
      rw [quote, hpart List.mem_cons_self hv]
      refine congrArg Except.ok (String.toList_inj.1 ?_)
      simp [Json.printedTuple, Json.tupleRest, hopen, hone]
    | @cons j' v' js vs hv' hrest =>
      have htuple : w.quote (valueDepth - 1 + 1) [] (.tuple (v :: v' :: vs)) =
          ((v :: v' :: vs).mapM (w.quote (valueDepth - 1) []) >>= fun ts =>
            .ok (bracketed "(" ")" ts)) := rfl
      rw [htuple, hparts]
      show Except.ok (bracketed "(" ")" _) = _
      rw [ofList_bracketed hopen hclose, List.map_cons, Json.listed_cons]
      simp [Json.printedTuple, Json.tupleRest]

end ScriptLang
