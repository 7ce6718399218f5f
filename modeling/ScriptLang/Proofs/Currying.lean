import ScriptLang.Proofs.ArrayParts
import ScriptLang.Proofs.Persistence

/-!
# Currying

A curried function takes its arguments in groups. What it has been given so far is kept in a new
cell for each group, which nothing changes later.
-/

namespace ScriptLang

open ScriptLang.Action

/-- Calls with groups of arguments one after the other, each of what the call before gave. Between
the calls the program may go on in any way. -/
inductive Calls (levels : Nat) : World → Value → List (List Value) → World → Value → Prop
  | none {w w' : World} {f : Value} (h : w.Leads w') : Calls levels w f [] w' f
  | more {w w₁ w₂ w' : World} {f g h : Value} {args : List Value} {groups : List (List Value)}
      (hlater : w.Leads w₁) (hcall : apply levels f args w₁ = .ok g w₂)
      (hrest : Calls levels w₂ g groups w' h) : Calls levels w f (args :: groups) w' h

/-- A value is a curried function of `n` arguments, or what such a function gave when it was called
with too few of them. The first level says which: how many levels a call of the function itself
takes less than a call of the value. -/
inductive Heap.Waits (h : Heap) (f : Value) (n : Nat) : Nat → List Value → Value → Prop
  | curried {c : Loc} (hc : h.cells[c]? = some (.derived (.curried f (.int n)))) :
      h.Waits f n 1 [] (.derived c)
  | applied {c k : Loc} {args : List Value}
      (hc : h.cells[c]? = some (.derived (.curried f (.int n))))
      (hk : h.cells[k]? = some (.derived (.applied c args))) : h.Waits f n 2 args (.derived k)

variable {f p : Value} {n d depth : Nat} {args : List Value} {w w' : World} {c k : Loc}

theorem Heap.Waits.lasts (h : w.heap.Waits f n depth args p) (hlasts : w.Lasts w') :
    w'.heap.Waits f n depth args p := by
  cases h with
  | curried hc => exact .curried (hlasts.derivedCell rfl hc)
  | applied hc hk => exact .applied (hlasts.derivedCell rfl hc) (hlasts.derivedCell rfl hk)

/-! ## One call -/

theorem apply_curried (hc : w.heap.cells[c]? = some (.derived (.curried f (.int n))))
    (args : List Value) :
    apply (d + 1) (.derived c) args w =
      if n ≤ args.length then apply d f (args.take n) w
      else .ok (.derived w.heap.cells.size) (w.pushCell (.derived (.applied c args))) := by
  have henough : (liftM (ordered .ge (.int args.length) (.int n)) : Action Bool) w =
      .ok (decide (n ≤ args.length)) w := by
    rw [Routine.perform_ok (ordered_ge args.length n w.toSetting)]
    simp only [Int.ofNat_le]
  rw [apply_derived hc rfl]
  refine (bind_ok henough).trans ?_
  by_cases h : n ≤ args.length
  · rw [if_pos h, decide_eq_true h, if_pos rfl]
    have hindex : (liftM (ofExcept (Value.int n).sliceIndex) : Action (Option Int)) w =
        .ok (some n) w := rfl
    refine (bind_ok hindex).trans ?_
    show apply d f (sliceList args 0 n) w = _
    rw [sliceList_front, sliceBound_nat, Nat.min_eq_left h]
  · rw [if_neg h, decide_eq_false h]
    rfl

theorem apply_applied (hk : w.heap.cells[k]? = some (.derived (.applied c args)))
    (group : List Value) :
    apply (d + 1) (.derived k) group w = apply d (.derived c) (args ++ group) w :=
  apply_derived hk rfl group

/-- With too few arguments, what there is so far is kept in a new cell, and nothing else happens. -/
theorem Heap.Waits.incomplete (h : w.heap.Waits f n depth args p) (group : List Value)
    (hfew : (args ++ group).length < n) :
    ∃ c q w', apply (d + 2) p group w = .ok q w' ∧
      w' = w.pushCell (.derived (.applied c (args ++ group))) ∧
      w'.heap.Waits f n 2 (args ++ group) q := by
  have kept {c : Loc} (hc : w.heap.cells[c]? = some (.derived (.curried f (.int n)))) :
      (w.pushCell (.derived (.applied c (args ++ group)))).heap.Waits f n 2 (args ++ group)
        (.derived w.heap.cells.size) :=
    .applied ((World.Extends.pushCell w _).cell hc) (w.pushCell_new _)
  cases h with
  | curried hc =>
    refine ⟨_, _, _, ?_, rfl, kept hc⟩
    have hless : ¬ n ≤ group.length := Nat.not_le.2 hfew
    rw [apply_curried hc, if_neg hless]
    rfl
  | applied hc hk =>
    refine ⟨_, _, _, ?_, rfl, kept hc⟩
    rw [apply_applied hk, apply_curried hc, if_neg (Nat.not_le.2 hfew)]

/-- With enough arguments, the function is called with the first of them. -/
theorem Heap.Waits.complete (h : w.heap.Waits f n depth args p) (group : List Value)
    (hall : n ≤ (args ++ group).length) :
    apply (d + 2) p group w = apply (d + 2 - depth) f ((args ++ group).take n) w := by
  cases h with
  | curried hc =>
    rw [List.nil_append] at hall ⊢
    rw [apply_curried hc, if_pos hall]
    rfl
  | applied hc hk =>
    rw [apply_applied hk, apply_curried hc, if_pos hall]
    rfl

/-! ## Groups of arguments -/

/-- Whatever happens between the calls, what is called in the end has all arguments so far. -/
theorem Calls.waits {groups : List (List Value)} {q : Value}
    (hcalls : Calls (d + 2) w p groups w' q) (h : w.heap.Waits f n depth args p)
    (hfew : (args ++ groups.flatten).length < n) :
    w'.heap.Waits f n (if groups = [] then depth else 2) (args ++ groups.flatten) q := by
  induction hcalls generalizing depth args with
  | none hlater =>
    rw [List.flatten_nil, List.append_nil]
    exact h.lasts hlater.lasts
  | @more w w₁ w₂ w' p q r group groups hlater hcall _ ih =>
    rw [List.flatten_cons, ← List.append_assoc] at hfew ⊢
    have hgroup : (args ++ group).length < n := by
      rw [List.length_append] at hfew
      omega
    obtain ⟨c, q', w₂', hrun, -, hq⟩ := (h.lasts hlater.lasts).incomplete (d := d) group hgroup
    cases hrun.symm.trans hcall
    have hlast := ih hq hfew
    rwa [ite_self] at hlast

/-- Calls one after the other with too few arguments only add cells for what there is so far. -/
theorem Heap.Waits.foldlM (h : w.heap.Waits f n depth args p) (groups : List (List Value))
    (hfew : (args ++ groups.flatten).length < n) :
    ∃ (cells : List Cell) (q : Value), (∀ c ∈ cells, ∃ k given, c = .derived (.applied k given)) ∧
      groups.foldlM (apply (d + 2)) p w = .ok q (cells.foldl World.pushCell w) ∧
      (cells.foldl World.pushCell w).heap.Waits f n (if groups = [] then depth else 2)
        (args ++ groups.flatten) q := by
  induction groups generalizing w depth args p with
  | nil => exact ⟨[], p, nofun, rfl, by simpa using h⟩
  | cons group groups ih =>
    rw [List.flatten_cons, ← List.append_assoc] at hfew ⊢
    have hgroup : (args ++ group).length < n := by
      rw [List.length_append] at hfew
      omega
    obtain ⟨c, q, w', hrun, rfl, hq⟩ := h.incomplete (d := d) group hgroup
    obtain ⟨cells, r, hcells, hrest, hr⟩ := ih hq hfew
    refine ⟨_ :: cells, r, ?_, ?_, by simpa using hr⟩
    · intro c' hc'
      rcases List.mem_cons.1 hc' with rfl | hc'
      · exact ⟨c, _, rfl⟩
      · exact hcells c' hc'
    · rw [List.foldlM_cons, bind_ok hrun]
      exact hrest

/-- It does not matter how the arguments of a curried function are grouped. When the groups before
the last have fewer than `n` arguments together, and all have that many, the calls one after the
other come to one call of the function, with the first `n` of all arguments. Until then nothing
happens but that cells are added for the arguments so far. This holds for what any of the calls
before the last gives, too, whatever the program has done in between and however often it was called
before: its later calls go on from the groups that led to it. -/
theorem currying_ignores_grouping (d : Nat) (f : Value) (n : Nat) (w : World) :
    ∃ c w₀, apply (d + 1) (.native (.core .curry)) [f, .int n] w = .ok c w₀ ∧ w.Extends w₀ ∧
      ∀ before p w₁, Calls (d + 2) w₀ c before w₁ p → ∀ groups last,
        (before ++ groups).flatten.length < n → n ≤ ((before ++ groups).flatten ++ last).length →
        ∃ cells : List Cell, (∀ c ∈ cells, ∃ k given, c = .derived (.applied k given)) ∧
          (groups ++ [last]).foldlM (apply (d + 2)) p w₁ =
            apply (if before ++ groups = [] then d + 1 else d) f
              (((before ++ groups).flatten ++ last).take n) (cells.foldl World.pushCell w₁) := by
  have hcurry : apply (d + 1) (.native (.core .curry)) [f, .int n] w =
      .ok (.derived w.heap.cells.size) (w.pushCell (.derived (.curried f (.int n)))) :=
    apply_core_eq rfl rfl
  refine ⟨_, _, hcurry, .pushCell w _, fun before p w₁ hcalls groups last hfew hall => ?_⟩
  rw [List.flatten_append] at hfew hall ⊢
  have hfirst : (w.pushCell (.derived (.curried f (.int n)))).heap.Waits f n 1 []
      (.derived w.heap.cells.size) :=
    .curried (w.pushCell_new _)
  have hp := hcalls.waits hfirst (by rw [List.nil_append]; rw [List.length_append] at hfew; omega)
  rw [List.nil_append] at hp
  obtain ⟨cells, q, hcells, hrun, hq⟩ := hp.foldlM (d := d) groups hfew
  have hlast := hq.complete (d := d) last hall
  have hlevels : d + 2 - (if groups = [] then if before = [] then 1 else 2 else 2) =
      if before ++ groups = [] then d + 1 else d := by
    by_cases hgroups : groups = [] <;> by_cases hbefore : before = [] <;> simp [hgroups, hbefore]
  refine ⟨cells, hcells, ?_⟩
  rw [List.foldlM_append, bind_ok hrun, List.foldlM_cons, ← hlevels, ← hlast]
  exact congrFun (bind_pure (apply (d + 2) q last)) _

/-- One and one are compared when they are given in three groups, with an argument too many. -/
theorem equal_called_in_groups :
    ∃ c w₀ w₁, apply 9 (.native (.core .curry)) [.native (.core .isEqual), .int 2] {} = .ok c w₀ ∧
      Calls 10 w₀ c [] w₀ c ∧
      [[.int 1], [], [.int 1, .int 5]].foldlM (apply 10) c w₀ = .ok (.bool true) w₁ := by
  obtain ⟨c, w₀, hcurry, -, hgroups⟩ := currying_ignores_grouping 8 (.native (.core .isEqual)) 2 {}
  have hcalls : Calls 10 w₀ c [] w₀ c := .none .refl
  obtain ⟨cells, -, hrun⟩ :=
    hgroups [] c w₀ hcalls [[.int 1], []] [.int 1, .int 5] (by decide) (by decide)
  exact ⟨c, w₀, _, hcurry, hcalls, hrun.trans (apply_core_eq rfl rfl)⟩

end ScriptLang
