import ScriptLang.Proofs.Words

/-!
# What is taken of a source

A comment or a lexeme is taken off the front of a source: what is taken and what is left make it up
again. Only texts and directives may run over the end of a line.
-/

namespace ScriptLang

open ScriptLang.Text ScriptLang.Number

variable {c : Char} {cs rest : List Char} {piece : Piece}

theorem splitBlockComment_eq (cs : List Char) :
    (splitBlockComment cs).1 ++ (splitBlockComment cs).2 = cs := by
  fun_induction splitBlockComment cs with
  | case1 rest => rfl
  | case2 c rest _ r ih => exact congrArg (c :: ·) ih
  | case3 => rfl

theorem splitComment_eq {comment : List Char} (h : splitComment cs = some (comment, rest)) :
    comment ++ rest = cs := by
  unfold splitComment at h
  split at h
  · cases h
    exact congrArg ('/' :: '/' :: ·) List.takeWhile_append_dropWhile
  · cases h
    exact congrArg ('/' :: '*' :: ·) (splitBlockComment_eq _)
  · cases h
    exact congrArg ('*' :: '*' :: ·) List.takeWhile_append_dropWhile
  · contradiction

theorem readSymbol_eq {s : Symbol} (h : readSymbol cs = some (s, rest)) :
    s.spelling.toList ++ rest = cs := by
  unfold readSymbol at h
  split at h
  all_goals first
    | contradiction
    | cases h
      rfl

theorem readDirective_eq {p : Place} (h : readDirective p cs = .ok piece) :
    piece.taken ++ piece.rest = cs := by
  unfold readDirective at h
  dsimp only at h
  split at h
  · next tail htail =>
    cases h
    have hclose : (tail.takeWhile (· ≠ '>')) ++ ((tail.dropWhile (· ≠ '>')).take 1 ++
        (tail.dropWhile (· ≠ '>')).drop 1) = tail := by
      rw [List.take_append_drop, List.takeWhile_append_dropWhile]
    calc _ = cs.takeWhile (!isBlank ·) ++ ((cs.dropWhile (!isBlank ·)).takeWhile isLayout ++
      '<' :: tail) := by
            conv_rhs => rw [← hclose]
            simp only [List.append_assoc, List.cons_append]
      _ = cs := by rw [← htail, List.takeWhile_append_dropWhile, List.takeWhile_append_dropWhile]
  · contradiction

/-- A lexeme is taken off the front of a source. -/
theorem Takes.eq (h : Takes c cs piece) : piece.taken ++ piece.rest = c :: cs := by
  cases h with
  | directive _ hread => exact readDirective_eq (hread {})
  | number _ _ _ => exact List.takeWhile_append_dropWhile
  | text _ _ _ hread => exact congrArg (c :: ·) (readText_eq c cs _ hread)
  | name _ _ _ _ => exact List.takeWhile_append_dropWhile
  | symbol _ _ _ _ hread => exact readSymbol_eq hread

/-- The lexemes that may run over the end of a line. -/
def Lexeme.mayRunOver : Lexeme → Bool
  | .text _ | .includes _ => true
  | _ => false

theorem newline_not_mem_takeWhile {p : Char → Bool} (hp : p '\n' = false) (cs : List Char) :
    '\n' ∉ cs.takeWhile p := by
  intro h
  rw [List.mem_takeWhile_imp h] at hp
  cases hp

theorem Takes.mayRunOver (h : Takes c cs piece) (hline : '\n' ∈ piece.taken) :
    piece.lexeme.mayRunOver = true := by
  cases h with
  | directive _ hread =>
    obtain ⟨package, hlexeme⟩ := readDirective_includes (hread {})
    rw [hlexeme]
    rfl
  | number _ _ _ => exact absurd hline (newline_not_mem_takeWhile rfl _)
  | text _ _ _ _ => rfl
  | name _ _ _ _ => exact absurd hline (newline_not_mem_takeWhile rfl _)
  | @symbol s _ _ _ _ _ _ =>
    have hspelling : '\n' ∉ s.spelling.toList := by cases s <;> decide
    exact absurd hline hspelling

end ScriptLang
