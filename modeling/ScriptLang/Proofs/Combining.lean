import ScriptLang.Proofs.DataModel

/-!
# Combining the items of an array

A function that leaves an array as it is can be called for its items one after the other, and what
is read at each index is the item of the array as it was at first. So reducing an array is the fold
over the list of its items, from the start value or, without one and also where the start value is
null, from the first item.
-/

namespace ScriptLang

open ScriptLang.Action

variable {call : Caller} {f : Value} {l : Loc} {xs : List Value} {w : World}

/-- Calls of a function leave the array at a location as it is. -/
def Spares (call : Caller) (f : Value) (l : Loc) : Prop :=
  ∀ args w v w', call f args w = .ok v w' → w'.heap.cells[l]? = w.heap.cells[l]?

/-! ## Reducing -/

theorem getItem_item {s : Setting} {i : Nat} {x : Value} (hx : (s.heap.items l)[i]? = some x)
    (hsmall : (i : Int) < indexLimit) : getItem (.array l) (.int i) s = .ok x s := by
  have hi : i < (s.heap.items l).size := (Array.getElem?_eq_some_iff.1 hx).1
  have hplace : placeIn "list" (s.heap.items l).size (.int i) s = .ok i s :=
    placeIn_ok (by rw [smallIndex, if_pos (small_nat hsmall)]) (place?_nat hi)
  refine (bind_ok (show items l s = .ok (s.heap.items l) s from rfl)).trans ?_
  refine (bind_ok hplace).trans ?_
  rw [Array.getD_eq_getD_getElem?, hx]
  rfl

/-- One call, with what was combined so far and the item at an index. -/
def combineAt (call : Caller) (f : Value) (l : Loc) (acc : Value) (i : Nat) : Action Value := do
  let v ← getItem (.array l) (.int i)
  call f [acc, v]

/-- The loop over the indexes that are left is the fold over the items that are left. -/
theorem foldlM_combineAt (hf : Spares call f l) (hsmall : (xs.length : Int) ≤ indexLimit)
    (done rest : List Value) (hxs : done ++ rest = xs) (acc : Value)
    (hl : w.heap.cells[l]? = some (.array xs.toArray)) :
    (List.range' done.length rest.length).foldlM (combineAt call f l) acc w =
      rest.foldlM (fun acc x => call f [acc, x]) acc w := by
  induction rest generalizing done acc w with
  | nil => rfl
  | cons x rest ih =>
    have hitem : (w.heap.items l)[done.length]? = some x := by simp [Heap.items_eq hl, ← hxs]
    have hlength : done.length < xs.length := by simp [← hxs]
    have hread : (liftM (getItem (.array l) (.int done.length)) : Action Value) w = .ok x w :=
      Routine.perform_ok (getItem_item (s := w.toSetting) hitem (by omega))
    have hcall : combineAt call f l acc done.length w = call f [acc, x] w := bind_ok hread
    rw [List.length_cons, List.range'_succ, List.foldlM_cons, List.foldlM_cons]
    cases hrun : call f [acc, x] w with
    | error e w' => rw [bind_error (hcall.trans hrun), bind_error hrun]
    | ok v w' =>
      rw [bind_ok (hcall.trans hrun), bind_ok hrun]
      simpa using ih (done ++ [x]) (by simpa using hxs) v ((hf _ _ _ _ hrun).trans hl)

/-- Reducing an array calls the function once for every item, from the left, with what the calls
before gave. It begins with the start value, or with the first item where the start value is
null. -/
theorem reduce_folds_from_the_left (hf : Spares call f l) (hsmall : (xs.length : Int) ≤ indexLimit)
    (hl : w.heap.cells[l]? = some (.array xs.toArray)) :
    (∀ start, start ≠ .null → Library.reduce call (.array l) f start w =
      xs.foldlM (fun acc x => call f [acc, x]) start w) ∧
    (∀ x rest, xs = x :: rest → Library.reduce call (.array l) f .null w =
      rest.foldlM (fun acc x => call f [acc, x]) x w) ∧
    (xs = [] → Library.reduce call (.array l) f .null w = .ok .null w) := by
  have hitems : (liftM (items l) : Action (Array Value)) w = .ok xs.toArray w := by
    rw [items_ok, Heap.items_eq hl]
  refine ⟨fun start hstart => ?_, ?_, ?_⟩
  · refine (bind_ok hitems).trans ?_
    cases xs with
    | nil => rfl
    | cons x rest =>
      have hfold := foldlM_combineAt hf hsmall [] (x :: rest) rfl start hl
      cases start with
      | null => exact absurd rfl hstart
      | _ => exact hfold
  · rintro x rest rfl
    refine (bind_ok hitems).trans ?_
    exact foldlM_combineAt hf hsmall [x] rest rfl x hl
  · rintro rfl
    exact (bind_ok hitems).trans rfl

theorem isEqual_spares (d : Nat) (l : Loc) :
    Spares (apply (d + 1)) (.native (.core .isEqual)) l := by
  intro args w v w' hcall
  cases hargs : CoreFn.isEqual.signature.bind CoreFn.isEqual.name args with
  | error e =>
    have hfails : (liftM (ofExcept (CoreFn.isEqual.signature.bind CoreFn.isEqual.name args)) :
        Action (List Value)) w = .error (.fault e) w := by
      rw [hargs]
      rfl
    rw [apply] at hcall
    cases (bind_error hfails).symm.trans hcall
  | ok given =>
    have hstill : Still (Library.runPlain .isEqual given) := (equal_still _ _).bind fun _ => .done _
    have hrun : (Library.runPlain .isEqual given).perform w = .ok v w' :=
      (apply_core hargs).symm.trans hcall
    unfold Routine.perform at hrun
    cases hplain : Library.runPlain .isEqual given w.toSetting with
    | error e s =>
      rw [hplain] at hrun
      cases hrun
    | ok a s =>
      rw [hplain] at hrun
      cases hrun
      rw [hstill.eq_of_ok hplain]

/-- A world with the array `[7, true, 5]`. -/
def threeItems : World where
  heap := { cells := #[.array #[.int 7, .bool true, .int 5]] }

/-- Each call compares what the calls before gave with the next item. -/
theorem threeItems_compared :
    Library.reduce (apply 8) (.array 0) (.native (.core .isEqual)) (.int 7) threeItems =
      .ok (.bool false) threeItems := by
  have hl : threeItems.heap.cells[0]? = some (.array [Value.int 7, .bool true, .int 5].toArray) :=
    rfl
  refine ((reduce_folds_from_the_left (isEqual_spares 7 0) (by decide) hl).1 (.int 7) nofun).trans
    ?_
  have hcall (a b : Value) : apply 8 (.native (.core .isEqual)) [a, b] threeItems =
      Library.runCore (apply 7) .isEqual [a, b] threeItems := apply_core rfl
  have hfirst : apply 8 (.native (.core .isEqual)) [.int 7, .int 7] threeItems =
      .ok (.bool true) threeItems := (hcall _ _).trans rfl
  have hsecond : apply 8 (.native (.core .isEqual)) [.bool true, .bool true] threeItems =
      .ok (.bool true) threeItems := (hcall _ _).trans rfl
  have hthird : apply 8 (.native (.core .isEqual)) [.bool true, .int 5] threeItems =
      .ok (.bool false) threeItems := (hcall _ _).trans rfl
  exact (bind_ok hfirst).trans ((bind_ok hsecond).trans ((bind_ok hthird).trans rfl))

/-- From null, the function is not called for the only item, which it would not even take. -/
theorem null_is_no_start :
    apply 9 (.native (.core .reduce)) [.array 0, .native (.core .identity), .null] oneNumber =
        .ok (.int 1) oneNumber ∧
      ∃ e, apply 8 (.native (.core .identity)) [.null, .int 1] oneNumber = .error e oneNumber := by
  refine ⟨(apply_core rfl).trans rfl, ?_⟩
  rw [apply]
  exact ⟨_, rfl⟩

end ScriptLang
