import ScriptLang.Proofs.Evaluation

/-!
# Calls of the functions every program has

A call of such a function binds its arguments and runs it, with calls of one level less for the
functions that it is given. Those that go over an array read it again at each round, and there are
rounds enough for every array.
-/

namespace ScriptLang

open ScriptLang.Action

variable {l : Loc} {i : Nat} {v : Value} {w w' : World}

/-- A call whose arguments fit runs the function with one level less. -/
theorem apply_core {d : Nat} {f : CoreFn} {given args : List Value}
    (hargs : f.signature.bind f.name given = .ok args) :
    apply (d + 1) (.native (.core f)) given w = Library.runCore (apply d) f args w := by
  have hbind : (liftM (ofExcept (f.signature.bind f.name given)) : Action (List Value)) w =
      .ok args w := by
    rw [hargs]
    rfl
  rw [apply]
  exact bind_ok hbind

theorem apply_core_eq {d : Nat} {f : CoreFn} {given args : List Value}
    {r : EStateM.Result Signal World Value} (hargs : f.signature.bind f.name given = .ok args)
    (hrun : Library.runCore (apply d) f args w = r) :
    apply (d + 1) (.native (.core f)) given w = r :=
  (apply_core hargs).trans hrun

theorem apply_identity (d : Nat) (v : Value) (w : World) :
    apply (d + 1) (.native (.core .identity)) [v] w = .ok v w :=
  apply_core_eq rfl rfl

def Derived.isMethod : Derived → Bool
  | .method .. | .staticMethod .. => true
  | _ => false

/-- The call of a function made of others, methods apart. -/
theorem apply_derived {d : Nat} {e : Derived} (hl : w.heap.cells[l]? = some (.derived e))
    (he : e.isMethod = false) (args : List Value) :
    apply (d + 1) (.derived l) args w = Library.callDerived (apply d) l e args w := by
  have hheap : (liftM heap : Action Heap) w = .ok w.heap w := rfl
  have hat : w.heap.derivedAt? l = some e := by rw [Heap.derivedAt?, hl]
  rw [apply]
  refine (bind_ok hheap).trans ?_
  rw [hat]
  cases e with
  | method receiver name inside => contradiction
  | staticMethod owner name => contradiction
  | _ => rfl

theorem ordered_lt (m n : Int) (s : Setting) :
    ordered .lt (.int m) (.int n) s = .ok (decide (m < n)) s := by
  have hcompare : ordered .lt (.int m) (.int n) s = .ok (compare m n == .lt) s := rfl
  rw [hcompare,
    Bool.eq_iff_iff.2 (beq_iff_eq.trans (Int.compare_eq_lt.trans decide_eq_true_iff.symm))]

theorem ordered_ge (m n : Int) (s : Setting) :
    ordered .ge (.int m) (.int n) s = .ok (decide (n ≤ m)) s := by
  have hcompare : ordered .ge (.int m) (.int n) s = .ok (compare m n != .lt) s := rfl
  rw [hcompare,
    Bool.eq_iff_iff.2 (bne_iff_ne.trans (Int.compare_ne_lt.trans decide_eq_true_iff.symm))]

section Rounds

variable {α : Type} {step : Nat → Value → α → Action (ForInStep α)} {n : Nat} {acc acc' : α}

theorem items_ok (l : Loc) (w : World) :
    (liftM (Action.items l) : Action (Array Value)) w = .ok (w.heap.items l) w :=
  rfl

theorem foldItemsFrom_yield (hv : (w.heap.items l)[i]? = some v)
    (hstep : step i v acc w = .ok (.yield acc') w') :
    foldItemsFrom l step (n + 1) i acc w = foldItemsFrom l step n (i + 1) acc' w' := by
  rw [foldItemsFrom]
  refine (bind_ok (items_ok l w)).trans ?_
  rw [hv]
  exact bind_ok hstep

theorem foldItemsFrom_done (hv : (w.heap.items l)[i]? = some v)
    (hstep : step i v acc w = .ok (.done acc') w') :
    foldItemsFrom l step (n + 1) i acc w = .ok acc' w' := by
  rw [foldItemsFrom]
  refine (bind_ok (items_ok l w)).trans ?_
  rw [hv]
  exact bind_ok hstep

theorem foldItemsFrom_end (hv : (w.heap.items l)[i]? = none) :
    foldItemsFrom l step (n + 1) i acc w = .ok acc w := by
  rw [foldItemsFrom]
  refine (bind_ok (items_ok l w)).trans ?_
  rw [hv]
  rfl

/-- There are enough rounds for all items that an array has at first, and for the end. -/
theorem foldItems_eq (init : α) (step : Nat → Value → α → Action (ForInStep α)) :
    ∃ n, foldItems l init step w = foldItemsFrom l step ((w.heap.items l).size + n + 1) 0
      init w := by
  obtain ⟨n, hn⟩ : ∃ n, loopLimit = n + 1 := ⟨loopLimit - 1, by simp [loopLimit]⟩
  refine ⟨n, ?_⟩
  rw [foldItems, bind_ok (items_ok l w), hn, Nat.add_assoc]

end Rounds

end ScriptLang
