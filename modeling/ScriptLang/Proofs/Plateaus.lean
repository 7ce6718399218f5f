import Mathlib.Data.Int.Order.Basic
import Mathlib.Data.Nat.Basic
import Mathlib.Order.Basic
import ScriptLang.Benchmark.Report

/-!
# The plateau of a sequence

Going over a sequence of counts leaves its smallest entry, as it first occurs, and the number of
entries after that (`Plateau.marks_ofHistory`). A sequence has levelled off when its last entries,
enough of them, are no improvement on those before, which can be seen from that number alone. So a
report names the lack of improvement exactly when the counts have levelled off above zero.
-/

namespace ScriptLang.Benchmark

variable {α : Type} {count : α → Int} {p : Plateau α} {xs : List α}

/-- The best entry is smaller than those before it and not larger than those after it, which are as
many as counted. -/
def Plateau.Marks (count : α → Int) (p : Plateau α) (xs : List α) : Prop :=
  ∃ before after, xs = before ++ p.best :: after ∧ after.length = p.since ∧
    (∀ x ∈ before, count p.best < count x) ∧ ∀ x ∈ after, count p.best ≤ count x

/-- At least `n` entries at the end of a sequence are no improvement: none of them is smaller than
all entries before. -/
def LevelledOff (count : α → Int) (n : Nat) (xs : List α) : Prop :=
  ∃ old recent, xs = old ++ recent ∧ n ≤ recent.length ∧ ∀ x ∈ recent, ∃ y ∈ old, count y ≤ count x

namespace Plateau

theorem marks_step (h : p.Marks count xs) (x : α) : (p.step count x).Marks count (xs ++ [x]) := by
  obtain ⟨before, after, rfl, hsince, hbefore, hafter⟩ := h
  rw [step]
  split
  · next hless =>
    refine ⟨before ++ p.best :: after, [], rfl, rfl, fun y hy => ?_, nofun⟩
    rcases List.mem_append.1 hy with hy | hy
    · exact hless.trans (hbefore y hy)
    · rcases List.mem_cons.1 hy with rfl | hy
      · exact hless
      · exact hless.trans_le (hafter y hy)
  · next hnot =>
    refine ⟨before, after ++ [x], by simp, by simp [hsince], hbefore, fun y hy => ?_⟩
    rcases List.mem_append.1 hy with hy | hy
    · exact hafter y hy
    · rw [List.mem_singleton.1 hy]
      exact not_lt.1 hnot

theorem marks_foldl (h : p.Marks count xs) (ys : List α) :
    (ys.foldl (step count) p).Marks count (xs ++ ys) := by
  induction ys generalizing p xs with
  | nil => simpa using h
  | cons y ys ih => simpa using ih (marks_step h y)

theorem marks_ofHistory (count : α → Int) (history : List α) (last : α) :
    (ofHistory count history last).Marks count (history ++ [last]) := by
  have hone (x : α) : Marks count ⟨x, 0⟩ [x] := ⟨[], [], rfl, rfl, nofun, nofun⟩
  cases history with
  | nil => exact hone last
  | cons first rest => exact marks_foldl (hone first) (rest ++ [last])

/-- The number of entries after the best one tells for how long there was no improvement. -/
theorem Marks.le_since_iff (h : p.Marks count xs) {n : Nat} :
    n ≤ p.since ↔ LevelledOff count n xs := by
  obtain ⟨before, after, rfl, hsince, hbefore, hafter⟩ := h
  constructor
  · intro hn
    exact ⟨before ++ [p.best], after, by simp, hsince ▸ hn, fun x hx =>
      ⟨p.best, by simp, hafter x hx⟩⟩
  · rintro ⟨old, recent, hsplit, hn, hworse⟩
    -- an entry that is smaller than all before it is not among the recent ones
    have hbest : p.best ∈ recent → ∃ y ∈ old, y ∉ before := by
      intro hmem
      obtain ⟨y, hy, hle⟩ := hworse p.best hmem
      exact ⟨y, hy, fun hy' => absurd (hbefore y hy') (not_lt.2 hle)⟩
    rcases List.append_eq_append_iff.1 hsplit with ⟨middle, rfl, hrest⟩ | ⟨middle, rfl, rfl⟩
    · cases middle with
      | nil =>
        obtain ⟨y, hy, hnot⟩ := hbest (by rw [List.nil_append] at hrest; simp [← hrest])
        exact absurd (by simpa using hy) hnot
      | cons z middle =>
        rw [List.cons_append, List.cons.injEq] at hrest
        rw [← hsince, hrest.2, List.length_append]
        exact hn.trans (Nat.le_add_left _ _)
    · obtain ⟨y, hy, hnot⟩ := hbest (by simp)
      exact absurd (List.mem_append_left _ hy) hnot

end Plateau

/-! ## The end of a report -/

/-- A state with more text printed. -/
def State.printing (st : State) (text : String) : State :=
  { st with out := st.out ++ text }

/-- The plateau of the counts so far and of the current one. -/
def State.plateau (st : State) (below : Nat) : Plateau Json :=
  .ofHistory Json.wholeOrZero st.counts (.whole below)

/-- What a report ends with for a reason to stop. -/
def stopText (why : String) : String :=
  "\n" ++ stopLine why ++ "\n"

theorem printing_inj {st : State} {text text' : String} (h : st.printing text = st.printing text') :
    text = text' :=
  (String.append_right_inj _).1 (congrArg State.out h)

theorem stopText_inj {why why' : String} (h : stopText why = stopText why') : why = why' := by
  have hline : stopLine why = stopLine why' :=
    (String.append_right_inj _).1 ((String.append_left_inj _).1 h)
  exact (String.append_right_inj _).1 ((String.append_left_inj _).1 hline)

/-- The reason to stop after a round, if there is one. -/
def stopReason (c : Coverage) (st : State) : Option String :=
  st.shares.below.bind fun below =>
    if leastCoverage ≤ c.totals.percent.number?.getD 0 then conclusion st.counts below else none

theorem conclude_eq (c : Coverage) (st st' : State) :
    conclude c st st' = .ok () (st'.printing (((stopReason c st).map stopText).getD "")) := by
  have hnothing : (.ok () st' : EStateM.Result Stop State Unit) = .ok () (st'.printing "") := by
    simp [State.printing]
  unfold conclude stopReason
  cases st.shares.below with
  | none => exact hnothing
  | some below =>
    by_cases hcovered : leastCoverage ≤ c.totals.percent.number?.getD 0
    · simp only [Option.bind_some, if_pos hcovered]
      cases conclusion st.counts below with
      | none => exact hnothing
      | some why =>
        have hout : st'.out ++ "" ++ "\n" ++ stopLine why ++ "\n" = st'.out ++ stopText why := by
          simp only [stopText, String.append_empty, String.append_assoc]
        exact congrArg (fun out => EStateM.Result.ok () { st' with out }) hout
    · simp only [Option.bind_some, if_neg hcovered]
      exact hnothing

theorem noImprovement_ne (p : Plateau Json) : noImprovement p ≠ "0 below" := by
  intro h
  have hlength := congrArg String.length h
  have hstart : (toString "no improvement in ").length = 18 := rfl
  have hshort : "0 below".length = 7 := rfl
  unfold noImprovement at hlength
  rw [String.length_append, String.length_append, String.length_append,
    String.length_append, hstart, hshort] at hlength
  omega

theorem conclusion_eq_noImprovement_iff (st : State) (below : Nat) :
    conclusion st.counts below = some (noImprovement (st.plateau below)) ↔
      below ≠ 0 ∧ LevelledOff Json.wholeOrZero patience (st.counts ++ [.whole below]) := by
  rw [← (Plateau.marks_ofHistory ..).le_since_iff, conclusion]
  split
  · next hzero => simp [hzero, Ne.symm (noImprovement_ne _)]
  · next hsome => simp [hsome, Plateau.reached, State.plateau]

/-- Going over counts leaves the smallest one and how many follow it; and a report ends with the
stop for lack of improvement exactly where enough is covered, the current count is not zero, and the
last three rounds or more brought no count smaller than all before. -/
theorem rounds_stop_on_a_plateau :
    (∀ (α : Type) (count : α → Int) (history : List α) (last : α),
      (Plateau.ofHistory count history last).Marks count (history ++ [last])) ∧
    ∀ (c : Coverage) (st st' : State) (below : Nat),
      (st.shares.below = some below ∧
        conclude c st st' = .ok () (st'.printing (stopText (noImprovement (st.plateau below))))) ↔
      st.shares.below = some below ∧ leastCoverage ≤ c.totals.percent.number?.getD 0 ∧
        below ≠ 0 ∧ LevelledOff Json.wholeOrZero 3 (st.counts ++ [.whole below]) := by
  refine ⟨fun _ => Plateau.marks_ofHistory, fun c st st' below => and_congr_right fun hbelow => ?_⟩
  have hreason :
      conclude c st st' = .ok () (st'.printing (stopText (noImprovement (st.plateau below)))) ↔
      stopReason c st = some (noImprovement (st.plateau below)) := by
    rw [conclude_eq]
    constructor
    · intro h
      injection h with _ h
      have htext := printing_inj h
      cases hwhy : stopReason c st with
      | none => simp [hwhy, stopText] at htext
      | some why =>
        rw [hwhy] at htext
        exact congrArg some (stopText_inj htext)
    · intro h
      rw [h]
      rfl
  rw [hreason, stopReason, hbelow, Option.bind_some]
  split
  · next hcovered => simp [hcovered, conclusion_eq_noImprovement_iff, patience]
  · next hcovered => simp [hcovered]

end ScriptLang.Benchmark
