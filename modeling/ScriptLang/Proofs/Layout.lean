import ScriptLang.Proofs.Words

/-!
# Words in any layout

A separator starts with a blank and goes on with blanks and comments. Words with separators between
them, and nothing else, are read back as the lexemes of the words, whatever separators are chosen
(`scan_laid_out`).
-/

namespace ScriptLang

variable {rest : List Char} {ls : List Lexeme}

/-! ## Separators -/

/-- What may stand between words: a blank, a comment that ends its line, or a comment in
brackets. -/
inductive Filler where
  | blank (c : Char) (layout : isLayout c = true)
  | line (stars : Bool) (body : List Char) (inside : '\n' ∉ body)
  | block (body : List Char) (inside : ¬ ['*', '/'] <:+: body)

/-- The characters of a filler. -/
def Filler.chars : Filler → List Char
  | .blank c _ => [c]
  | .line stars body _ => (if stars then ['*', '*'] else ['/', '/']) ++ body ++ ['\n']
  | .block body _ => ['/', '*'] ++ body ++ ['*', '/']

theorem splitBlockComment_append {body : List Char} (h : ¬ ['*', '/'] <:+: body)
    (rest : List Char) :
    splitBlockComment (body ++ '*' :: '/' :: rest) = (body ++ ['*', '/'], rest) := by
  induction body with
  | nil => rfl
  | cons c body ih =>
    have hbody := ih fun hin => h (hin.trans (List.suffix_cons c body).isInfix)
    rw [List.cons_append, splitBlockComment, hbody]
    · rfl
    · -- a star here and a slash after it would close the comment
      rintro tail rfl htail
      cases body with
      | nil => exact absurd (List.cons.inj htail).1 (by decide)
      | cons d body =>
        cases (List.cons.inj htail).1
        exact h ⟨[], body, rfl⟩

theorem Filler.scans (f : Filler) (h : Scans rest ls) : Scans (f.chars ++ rest) ls := by
  cases f with
  | blank c layout => exact .layout layout h
  | line stars body inside =>
    -- the comment ends before the newline, which is the next blank
    obtain ⟨htake, hdrop⟩ := takeWhile_ne_append inside rest
    have hline : splitLine (body ++ '\n' :: rest) = (body, '\n' :: rest) := by
      rw [splitLine, htake, hdrop]
    have hrest : Scans ('\n' :: rest) ls := .layout (by decide) h
    have hcomment : splitComment ((Filler.line stars body inside).chars ++ rest) =
        some ((if stars then ['*', '*'] else ['/', '/']) ++ body, '\n' :: rest) := by
      cases stars <;> simp [Filler.chars, splitComment, hline]
    exact .comment hcomment hrest
  | block body inside =>
    have hcomment : splitComment ((Filler.block body inside).chars ++ rest) =
        some ('/' :: '*' :: (body ++ ['*', '/']), rest) := by
      simp [Filler.chars, splitComment, splitBlockComment_append inside]
    exact .comment hcomment h

theorem scans_fillers (fs : List Filler) (h : Scans rest ls) :
    Scans (fs.flatMap Filler.chars ++ rest) ls := by
  induction fs with
  | nil => exact h
  | cons f fs ih =>
    rw [List.flatMap_cons, List.append_assoc]
    exact f.scans ih

/-- What separates two words: a blank and then anything that may stand between words. -/
structure Separator where
  first : Char
  layout : isLayout first = true
  more : List Filler

/-- The characters of a separator. -/
def Separator.chars (s : Separator) : List Char :=
  s.first :: s.more.flatMap Filler.chars

theorem Separator.apart (s : Separator) (rest : List Char) : Apart (s.chars ++ rest) := by
  rintro c ⟨⟩
  exact s.layout

theorem Separator.scans (s : Separator) (h : Scans rest ls) : Scans (s.chars ++ rest) ls :=
  .layout s.layout (scans_fillers s.more h)

/-! ## Sources -/

/-- Words with separators between them, any layout before the first, and a separator or nothing
after the last. -/
structure LaidOut where
  lead : List Filler
  words : List (Word × Separator)
  last : Option Word

/-- The characters of laid out words. -/
def LaidOut.chars (t : LaidOut) : List Char :=
  t.lead.flatMap Filler.chars ++ (t.words.flatMap (fun w => w.1.chars ++ w.2.chars) ++
    t.last.elim [] Word.chars)

/-- The lexemes of laid out words. -/
def LaidOut.lexemes (t : LaidOut) : List Lexeme :=
  t.words.map (fun w => w.1.lexeme) ++ t.last.toList.map Word.lexeme

theorem scans_last (last : Option Word) :
    Scans (last.elim [] Word.chars) (last.toList.map Word.lexeme ++ [.finish]) := by
  cases last with
  | none => exact .done
  | some w =>
    have hscans : Scans (w.chars ++ []) [w.lexeme, .finish] := w.readAs.scans nofun .done
    rwa [List.append_nil] at hscans

theorem scans_words (words : List (Word × Separator))
    (h : Scans rest ls) : Scans (words.flatMap (fun w => w.1.chars ++ w.2.chars) ++ rest)
      (words.map (fun w => w.1.lexeme) ++ ls) := by
  induction words with
  | nil => exact h
  | cons w words ih =>
    rw [List.flatMap_cons, List.append_assoc, List.append_assoc]
    exact w.1.readAs.scans (w.2.apart _) (w.2.scans ih)

/-- Words are read back from any layout: each as its lexeme, and nothing else but the end. -/
theorem scan_laid_out (t : LaidOut) : ∃ tokens, scan (String.ofList t.chars) = .ok tokens ∧
    tokens.map (·.lexeme) = t.lexemes ++ [.finish] := by
  rw [scan_iff, String.toList_ofList, LaidOut.lexemes, List.append_assoc]
  exact scans_fillers t.lead (scans_words t.words (scans_last t.last))

end ScriptLang
