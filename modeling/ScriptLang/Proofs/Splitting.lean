import Mathlib.Data.List.Forall2
import Mathlib.Data.Nat.Init
import ScriptLang.Text.Blank
import ScriptLang.Text.Search

/-!
# Texts in pieces

A text that is split at every occurrence of a character has the pieces between them
(`splitOn_char`). If the pieces of two texts correspond, and empty pieces only to empty ones, then
so do the pieces of the two texts without that character at their ends (`forall₂_splitOn_trimBy`).
-/

namespace ScriptLang.Text

variable {c d : Char} {s t : List Char}

/-! ## One character -/

theorem cut_cons_self (c : Char) (s : List Char) : cut [c] (c :: s) = some ([], s) := by
  simp [cut, afterPrefix]

theorem cut_cons_of_ne (h : c ≠ d) (s : List Char) :
    cut [c] (d :: s) = (cut [c] s).map fun r => (d :: r.1, r.2) := by
  simp [cut, afterPrefix, h]

theorem isSome_cut (c : Char) (s : List Char) : (cut [c] s).isSome = true ↔ c ∈ s := by
  induction s with
  | nil => simp [cut]
  | cons d s ih =>
    by_cases h : c = d
    · subst h
      simp [cut_cons_self]
    · simp [cut_cons_of_ne h, h, ih]

theorem contains_char {s : String} {c : Char} :
    contains (String.ofList [c]) s = true ↔ c ∈ s.toList := by
  rw [contains, String.toList_ofList, isSome_cut]

theorem splitAtMost_cons_self (c : Char) (n : Nat) (s : List Char) :
    splitAtMost [c] (n + 1) (c :: s) = [] :: splitAtMost [c] n s := by
  rw [splitAtMost, cut_cons_self]

theorem splitAtMost_cons_of_ne (h : c ≠ d) (n : Nat) (s : List Char) :
    splitAtMost [c] (n + 1) (d :: s) = (splitAtMost [c] (n + 1) s).modifyHead (d :: ·) := by
  rw [splitAtMost, splitAtMost, cut_cons_of_ne h]
  cases cut [c] s <;> rfl

/-- With as many cuts allowed as there are characters, a text is cut wherever the character is. -/
theorem splitAtMost_char (c : Char) {n : Nat} (hn : s.length < n) :
    splitAtMost [c] n s = s.splitOn c := by
  induction s generalizing n with
  | nil =>
    obtain ⟨n, rfl⟩ := Nat.exists_eq_succ_of_ne_zero (Nat.ne_zero_of_lt hn)
    simp [splitAtMost, cut]
  | cons d s ih =>
    obtain ⟨n, rfl⟩ := Nat.exists_eq_succ_of_ne_zero (Nat.ne_zero_of_lt hn)
    rw [List.length_cons, Nat.succ_lt_succ_iff] at hn
    rw [List.splitOn, List.splitOnP_cons_eq_if_modifyHead, ← List.splitOn]
    by_cases h : c = d
    · subst h
      rw [splitAtMost_cons_self, ih hn, if_pos (beq_self_eq_true c)]
    · rw [splitAtMost_cons_of_ne h, ih (Nat.lt_succ_of_lt hn), if_neg (by simpa using Ne.symm h)]

theorem splitOn_char (c : Char) (s : List Char) : splitOn [c] s = s.splitOn c :=
  splitAtMost_char c (Nat.lt_succ_self _)

theorem split_char (c : Char) (s : String) :
    split (String.ofList [c]) s = (s.toList.splitOn c).map String.ofList := by
  rw [split, String.toList_ofList, splitOn_char]

/-! ## Pieces -/

theorem splitOn_cons_self (c : Char) (s : List Char) : (c :: s).splitOn c = [] :: s.splitOn c := by
  rw [List.splitOn, List.splitOnP_cons_eq_if_modifyHead, if_pos (beq_self_eq_true c)]
  rfl

theorem splitOn_cons_of_ne (h : d ≠ c) (s : List Char) :
    ∃ piece pieces, (d :: s).splitOn c = (d :: piece) :: pieces := by
  have hpieces : s.splitOn c ≠ [] := List.splitOnP_ne_nil _ _
  obtain ⟨piece, pieces, hs⟩ := List.exists_cons_of_ne_nil hpieces
  refine ⟨piece, pieces, ?_⟩
  rw [List.splitOn, List.splitOnP_cons_eq_if_modifyHead, if_neg (by simpa using h)]
  rw [List.splitOn] at hs
  rw [hs]
  rfl

theorem splitOn_append (c : Char) (s t : List Char) :
    (s ++ c :: t).splitOn c = s.splitOn c ++ t.splitOn c :=
  List.splitOnP_append_cons s t (beq_self_eq_true c)

theorem splitOn_of_not_mem (h : c ∉ s) : s.splitOn c = [s] := by
  have hone : ∀ piece ∈ [s], c ∉ piece := by simpa using h
  simpa [List.intercalate] using List.splitOn_intercalate c hone (by simp)

theorem splitOn_reverse (c : Char) (s : List Char) :
    s.reverse.splitOn c = ((s.splitOn c).map List.reverse).reverse := by
  -- by the length: a text with the character is split there, one without is a single piece
  induction hlength : s.length using Nat.strong_induction_on generalizing s with
  | _ n ih =>
    subst hlength
    by_cases hmem : c ∈ s
    · obtain ⟨a, b, rfl⟩ := List.append_of_mem hmem
      have hreverse : (a ++ c :: b).reverse = b.reverse ++ c :: a.reverse := by simp
      rw [hreverse, splitOn_append, splitOn_append, ih b.length (by simp; omega) b rfl,
        ih a.length (by simp) a rfl]
      simp
    · rw [splitOn_of_not_mem hmem, splitOn_of_not_mem (by simpa using hmem)]
      rfl

/-! ## Trimmed texts -/

section Corresponding

variable {R : List Char → List Char → Prop}

/-- Corresponding pieces still correspond when the character is dropped in front of both texts. -/
theorem forall₂_splitOn_dropWhile (hempty : ∀ a b, R a b → (a = [] ↔ b = []))
    (h : List.Forall₂ R (s.splitOn c) (t.splitOn c)) :
    List.Forall₂ R ((s.dropWhile (· == c)).splitOn c) ((t.dropWhile (· == c)).splitOn c) := by
  induction s generalizing t with
  | nil =>
    cases t with
    | nil => exact h
    | cons d t =>
      by_cases hd : d = c
      · -- the second text has an empty piece and others, the first only an empty one
        subst hd
        rw [splitOn_cons_self, List.splitOn_nil] at h
        cases h with
        | cons _ hrest =>
          exact absurd (List.forall₂_nil_left_iff.1 hrest) (List.splitOnP_ne_nil _ _)
      · rw [List.dropWhile_cons_of_neg (by simpa using hd)]
        exact h
  | cons e s ih =>
    by_cases he : e = c
    · subst he
      rw [splitOn_cons_self] at h
      rw [List.dropWhile_cons_of_pos (by simp)]
      cases t with
      | nil =>
        rw [List.splitOn_nil] at h
        cases h with
        | cons _ hrest =>
          exact absurd (List.forall₂_nil_right_iff.1 hrest) (List.splitOnP_ne_nil _ _)
      | cons d t =>
        by_cases hd : d = e
        · subst hd
          rw [splitOn_cons_self] at h
          rw [List.dropWhile_cons_of_pos (by simp)]
          cases h with
          | cons _ hrest => exact ih hrest
        · obtain ⟨piece, pieces, hpieces⟩ := splitOn_cons_of_ne hd t
          rw [hpieces] at h
          cases h with
          | cons hfirst _ => exact absurd ((hempty _ _ hfirst).1 rfl) (by simp)
    · rw [List.dropWhile_cons_of_neg (by simpa using he)]
      cases t with
      | nil => exact h
      | cons d t =>
        by_cases hd : d = c
        · subst hd
          obtain ⟨piece, pieces, hpieces⟩ := splitOn_cons_of_ne he s
          rw [hpieces, splitOn_cons_self] at h
          cases h with
          | cons hfirst _ => exact absurd ((hempty _ _ hfirst).2 rfl) (by simp)
        · rw [List.dropWhile_cons_of_neg (by simpa using hd)]
          exact h

theorem forall₂_splitOn_reverse (h : List.Forall₂ R (s.splitOn c) (t.splitOn c)) :
    List.Forall₂ (fun a b => R a.reverse b.reverse) (s.reverse.splitOn c)
      (t.reverse.splitOn c) := by
  rw [splitOn_reverse, splitOn_reverse, List.forall₂_reverse_iff, List.forall₂_map_left_iff,
    List.forall₂_map_right_iff]
  simpa using h

/-- Corresponding pieces still correspond when the character is dropped at the ends of both
texts. -/
theorem forall₂_splitOn_trimBy (hempty : ∀ a b, R a b → (a = [] ↔ b = []))
    (h : List.Forall₂ R (s.splitOn c) (t.splitOn c)) :
    List.Forall₂ R ((trimBy (· == c) s).splitOn c) ((trimBy (· == c) t).splitOn c) := by
  have hback := forall₂_splitOn_dropWhile (fun a b hab => by simpa using hempty _ _ hab)
    (forall₂_splitOn_reverse (forall₂_splitOn_dropWhile hempty h))
  simpa [trimBy] using forall₂_splitOn_reverse hback

end Corresponding

end ScriptLang.Text
