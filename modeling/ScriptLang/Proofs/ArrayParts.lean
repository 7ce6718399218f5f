import ScriptLang.Proofs.Growth

/-!
# Parts of arrays

The functions that take an array apart lose none of its items: they make new arrays, of items that
make up the whole, and leave the array as it is. A function that tells the items apart has no effect
either (`Decides`), so that a loop over the array comes to the loop over a list.
-/

namespace ScriptLang

open ScriptLang.Action

variable {w w₁ : World} {l : Loc} {xs : List Value}

/-! ## Slices -/

theorem sliceBound_nat (n k : Nat) : sliceBound n k = min k n := by
  have hk : ¬ (k : Int) < 0 := Int.not_lt.2 (Int.natCast_nonneg k)
  simp only [sliceBound, if_neg hk, Int.toNat_natCast]

theorem drop_of_append {front back xs : List Value} {n : Nat} (hn : n = front.length)
    (h : front ++ back = xs) : xs.drop (min n xs.length) = back := by
  subst hn h
  simp

theorem sliceList_front (xs : List Value) (n : Int) :
    sliceList xs 0 n = xs.take (sliceBound xs.length n) := by
  have hzero : sliceBound xs.length 0 = 0 := sliceBound_nat xs.length 0
  simp [sliceList, hzero]

theorem sliceList_back (xs : List Value) (n : Int) :
    sliceList xs n xs.length = xs.drop (sliceBound xs.length n) := by
  have hall : sliceBound xs.length xs.length = xs.length := by simp [sliceBound_nat]
  rw [sliceList, hall]
  exact List.take_of_length_le (by simp)

theorem sliceArray_toArray (xs : List Value) (start stop : Int) :
    sliceArray xs.toArray start stop = (sliceList xs start stop).toArray := by
  rw [sliceArray, sliceList, List.size_toArray, List.extract_toArray, List.extract_eq_take_drop]

theorem makes_slice (hl : w.heap.cells[l]? = some (.array xs.toArray)) (start stop : Option Int) :
    Makes (liftM (Action.slice (.array l) start stop)) w
      (sliceList xs (start.getD 0) (stop.getD xs.length)) := by
  have hslice : (liftM (Action.slice (.array l) start stop) : Action Value) w =
      (liftM (newArray (sliceArray (w.heap.items l) (start.getD 0)
        (stop.getD (w.heap.items l).size))) : Action Value) w := rfl
  refine (makes_newArray _ w).congr (hslice.trans ?_)
  rw [Heap.items_eq hl, List.size_toArray, sliceArray_toArray]

theorem makes_take (hl : w.heap.cells[l]? = some (.array xs.toArray)) (n : Int) :
    Makes (liftM (Library.take (.array l) (.int n))) w (xs.take (sliceBound xs.length n)) := by
  rw [← sliceList_front]
  exact makes_slice hl none (some n)

theorem makes_drop (hl : w.heap.cells[l]? = some (.array xs.toArray)) (n : Int) :
    Makes (liftM (Library.drop (.array l) (.int n))) w (xs.drop (sliceBound xs.length n)) := by
  rw [← sliceList_back]
  exact makes_slice hl (some n) none

/-! ## Loops without effect -/

/-- A loop over an array ends as its rounds do. Each of them keeps an invariant of the items so far,
which leaves the array as it is, or ends the loop. -/
theorem foldItems_ends {α : Type} {step : Nat → Value → α → Action (ForInStep α)} {init : α}
    {I : List Value → α → World → Prop} {E : α → World → Prop}
    (hl : w.heap.cells[l]? = some (.array xs.toArray)) (hinit : I [] init w)
    (hgrows : ∀ done acc w₁, I done acc w₁ → w.Extends w₁)
    (hstep : ∀ done x rest, done ++ x :: rest = xs → ∀ acc w₁, I done acc w₁ → ∃ acc₁ w₂,
      step done.length x acc w₁ = .ok (.yield acc₁) w₂ ∧ I (done ++ [x]) acc₁ w₂ ∨
      step done.length x acc w₁ = .ok (.done acc₁) w₂ ∧ E acc₁ w₂)
    (hends : ∀ acc w₁, I xs acc w₁ → E acc w₁) :
    ∃ acc w₁, foldItems l init step w = .ok acc w₁ ∧ E acc w₁ := by
  -- by induction on the items that are left
  have rounds (done rest : List Value) (hxs : done ++ rest = xs) (n : Nat) (acc : α) (w₁ : World)
      (hinv : I done acc w₁) :
      ∃ acc₁ w₂, foldItemsFrom l step (rest.length + n + 1) done.length acc w₁ = .ok acc₁ w₂ ∧
        E acc₁ w₂ := by
    have hitems : w₁.heap.items l = xs.toArray := Heap.items_eq ((hgrows done acc w₁ hinv).cell hl)
    induction rest generalizing done acc w₁ with
    | nil =>
      rw [List.append_nil] at hxs
      exact ⟨acc, w₁, foldItemsFrom_end (by simp [hitems, hxs]), hends acc w₁ (hxs ▸ hinv)⟩
    | cons x rest ih =>
      have hx : (w₁.heap.items l)[done.length]? = some x := by simp [hitems, ← hxs]
      have hleft : (x :: rest).length + n + 1 = rest.length + n + 1 + 1 := by
        rw [List.length_cons]
        omega
      rw [hleft]
      obtain ⟨acc₁, w₂, ⟨hrun, hnext⟩ | ⟨hrun, hdone⟩⟩ := hstep done x rest hxs acc w₁ hinv
      · obtain ⟨acc₂, w₃, hrest, hlast⟩ := ih (done ++ [x]) (by simp [hxs]) acc₁ w₂ hnext
          (Heap.items_eq ((hgrows _ _ _ hnext).cell hl))
        rw [List.length_append, List.length_singleton] at hrest
        exact ⟨acc₂, w₃, (foldItemsFrom_yield hx hrun).trans hrest, hlast⟩
      · exact ⟨acc₁, w₂, foldItemsFrom_done hx hrun, hdone⟩
  obtain ⟨n, hn⟩ := foldItems_eq (w := w) (l := l) init step
  rw [hn, Heap.items_eq hl, List.size_toArray]
  exact rounds [] xs rfl n init w hinit

/-- Called with any of the items, a function tells whether it passes a test. It has no effect, so
that it tells the same whatever is added to the world in between. -/
def Decides (call : Caller) (f : Value) (test : Value → Bool) (xs : List Value) (w : World) :
    Prop :=
  ∀ w₁, w.Extends w₁ → ∀ x ∈ xs, ∃ v w₂, call f [x] w₁ = .ok v w₂ ∧ w₁.Extends w₂ ∧
    w₂.heap.truthy v = test x

section Tests

variable {call : Caller} {f : Value} {test : Value → Bool}

theorem Decides.mono (h : Decides call f test xs w) (hgrows : w.Extends w₁) :
    Decides call f test xs w₁ :=
  fun w₂ hw₂ => h w₂ (hgrows.trans hw₂)

theorem Decides.tells (h : Decides call f test xs w) (x : Value) (hx : x ∈ xs) (w₁ : World)
    (hgrows : w.Extends w₁) :
    ∃ w₂, (do truthy (← call f [x]) : Action Bool) w₁ = .ok (test x) w₂ ∧ w₁.Extends w₂ := by
  obtain ⟨v, w₂, hcall, hw₂, hv⟩ := h w₁ hgrows x hx
  refine ⟨w₂, (bind_ok hcall).trans ?_, hw₂⟩
  rw [← hv]
  rfl

/-- The negation of a function decides the opposite, one level higher. -/
theorem Decides.negate {d : Nat} {k : Loc} (h : Decides (apply d) f test xs w)
    (hk : w.heap.cells[k]? = some (.derived (.negated f))) :
    Decides (apply (d + 1)) (.derived k) (fun x => !test x) xs w := by
  intro w₁ hgrows x hx
  obtain ⟨w₂, htruth, hw₂⟩ := h.tells x hx w₁ hgrows
  refine ⟨.bool (!test x), w₂, ?_, hw₂, rfl⟩
  rw [apply_derived (hgrows.cell hk) rfl]
  show (apply d f [x] >>= fun v => liftM (truthy v) >>= fun b =>
    pure (Value.bool !b) : Action Value) w₁ = _
  rw [← bind_assoc, bind_ok htruth]
  rfl

theorem all_pass {done : List Value} {x : Value} (hdone : ∀ y ∈ done, test y = true)
    (hx : test x = true) : ∀ y ∈ done ++ [x], test y = true :=
  List.forall_mem_append.2 ⟨hdone, List.forall_mem_singleton.2 hx⟩

/-- The first item that fails a test stands behind those that pass. -/
theorem while_of_fails {done rest : List Value} {x : Value} (hdone : ∀ y ∈ done, test y = true)
    (hx : test x = false) (hxs : done ++ x :: rest = xs) :
    xs.takeWhile test = done ∧ xs.dropWhile test = x :: rest := by
  subst hxs
  rw [List.takeWhile_append_of_pos hdone, List.dropWhile_append_of_pos hdone]
  simp [hx]

variable (h : Decides call f test xs w) (hl : w.heap.cells[l]? = some (.array xs.toArray))

include h hl

/-- The items that pass a test, and those that do not. -/
theorem partitionItems_ok :
    ∃ w₁, partitionItems l (fun v => do truthy (← call f [v])) w =
      .ok ((xs.filter test).toArray, (xs.filter fun x => !test x).toArray) w₁ ∧ w.Extends w₁ := by
  obtain ⟨_, w₁, hrun, rfl, hgrows⟩ :
      ∃ acc w₁, partitionItems l (fun v => do truthy (← call f [v])) w =
      .ok acc w₁ ∧ acc = ((xs.filter test).toArray, (xs.filter fun x => !test x).toArray) ∧
      w.Extends w₁ := by
    refine foldItems_ends (I := fun done acc w₁ =>
      acc = ((done.filter test).toArray, (done.filter fun x => !test x).toArray) ∧ w.Extends w₁) hl
      ⟨rfl, .refl w⟩ (fun _ _ _ h => h.2) ?_ fun _ _ h => h
    rintro done x rest hxs _ w₁ ⟨rfl, hw₁⟩
    obtain ⟨w₂, htruth, hw₂⟩ := h.tells x (by simp [← hxs]) w₁ hw₁
    refine ⟨_, w₂, .inl ⟨(bind_ok htruth).trans ?_, rfl, hw₁.trans hw₂⟩⟩
    cases htest : test x <;> simp [htest] <;> rfl
  exact ⟨w₁, hrun, hgrows⟩

theorem makes_filter : Makes (Library.filter call (.array l) f) w (xs.filter test) := by
  obtain ⟨w₁, hrun, hgrows⟩ := partitionItems_ok h hl
  exact .after hrun hgrows (makes_newArray _ w₁)

theorem makesParts_partition :
    MakesParts (Library.partition call (.array l) f) w [xs.filter test, xs.filter fun x =>
      !test x] := by
  obtain ⟨w₁, hrun, hgrows⟩ := partitionItems_ok h hl
  let w₂ := w₁.pushCell (.array (xs.filter test).toArray)
  let w₃ := w₂.pushCell (.array (xs.filter fun x => !test x).toArray)
  let w₄ := w₃.pushCell (.array #[.array w₁.heap.cells.size, .array w₂.heap.cells.size])
  have h₂ : w₁.Extends w₂ := .pushCell w₁ _
  have h₃ : w₂.Extends w₃ := .pushCell w₂ _
  have h₄ : w₃.Extends w₄ := .pushCell w₃ _
  refine ⟨w₃.heap.cells.size, [w₁.heap.cells.size, w₂.heap.cells.size], w₄, ?_,
    ((hgrows.trans h₂).trans h₃).trans h₄, ((hgrows.trans h₂).trans h₃).fresh w₃.getElem?_size,
    w₃.pushCell_new _, .cons ⟨hgrows.fresh w₁.getElem?_size, ?_⟩
      (.cons ⟨(hgrows.trans h₂).fresh w₂.getElem?_size, ?_⟩ .nil)⟩
  · exact (bind_ok hrun).trans rfl
  · exact h₄.cell (h₃.cell (w₁.pushCell_new _))
  · exact h₄.cell (w₂.pushCell_new _)

theorem makes_takeWhile : Makes (Library.takeWhile call (.array l) f) w (xs.takeWhile test) := by
  obtain ⟨_, w₁, hrun, rfl, hgrows⟩ : ∃ acc w₁, foldItems l #[] (fun _ v acc => do
      if ← truthy (← call f [v]) then return .yield (acc.push v) else return .done acc) w =
        .ok acc w₁ ∧
      acc = (xs.takeWhile test).toArray ∧ w.Extends w₁ := by
    refine foldItems_ends (I := fun done acc w₁ => acc = done.toArray ∧
      (∀ y ∈ done, test y = true) ∧
      w.Extends w₁) hl ⟨rfl, by simp, .refl w⟩ (fun _ _ _ h => h.2.2) ?_ ?_
    · rintro done x rest hxs _ w₁ ⟨rfl, hdone, hw₁⟩
      obtain ⟨w₂, htruth, hw₂⟩ := h.tells x (by simp [← hxs]) w₁ hw₁
      rw [← bind_assoc, bind_ok htruth]
      cases hx : test x with
      | true => exact ⟨_, w₂, .inl ⟨rfl, by simp, all_pass hdone hx, hw₁.trans hw₂⟩⟩
      | false => exact ⟨_, w₂, .inr ⟨rfl, by rw [(while_of_fails hdone hx hxs).1], hw₁.trans hw₂⟩⟩
    · rintro _ w₁ ⟨rfl, hall, hw₁⟩
      exact ⟨by rw [List.takeWhile_eq_self_iff.2 hall], hw₁⟩
  exact .after hrun hgrows (makes_newArray _ w₁)

theorem makes_dropWhile : Makes (Library.dropWhile call (.array l) f) w (xs.dropWhile test) := by
  obtain ⟨_, w₁, hrun, rfl, hgrows⟩ : ∃ acc w₁,
      findItem l (fun v => do return !(← truthy (← call f [v]))) w = .ok acc w₁ ∧
      acc = (xs.dropWhile test).head?.map (fun x => ((xs.takeWhile test).length, x)) ∧
      w.Extends w₁ := by
    refine foldItems_ends (I := fun done acc w₁ => acc = none ∧ (∀ y ∈ done, test y = true) ∧
      w.Extends w₁) hl ⟨rfl, by simp, .refl w⟩ (fun _ _ _ h => h.2.2) ?_ ?_
    · rintro done x rest hxs _ w₁ ⟨rfl, hdone, hw₁⟩
      obtain ⟨w₂, htruth, hw₂⟩ := h.tells x (by simp [← hxs]) w₁ hw₁
      have hnot : (do return !(← truthy (← call f [x])) : Action Bool) w₁ = .ok (!test x) w₂ := by
        rw [← bind_assoc, bind_ok htruth]
        rfl
      simp only [bind_ok hnot]
      cases hx : test x with
      | true => exact ⟨_, w₂, .inl ⟨rfl, rfl, all_pass hdone hx, hw₁.trans hw₂⟩⟩
      | false =>
        obtain ⟨htake, hdrop⟩ := while_of_fails hdone hx hxs
        exact ⟨_, w₂, .inr ⟨rfl, by rw [htake, hdrop]; rfl, hw₁.trans hw₂⟩⟩
    · rintro _ w₁ ⟨rfl, hall, hw₁⟩
      exact ⟨by rw [List.dropWhile_eq_nil_iff.2 hall]; rfl, hw₁⟩
  refine .after hrun hgrows ?_
  cases hrest : xs.dropWhile test with
  | nil => exact makes_newArray [] w₁
  | cons x rest =>
    have hmakes := makes_slice (hgrows.cell hl) (some (xs.takeWhile test).length) none
    have hback : sliceList xs (xs.takeWhile test).length xs.length = x :: rest := by
      rw [sliceList_back, sliceBound_nat, ← hrest]
      exact drop_of_append rfl List.takeWhile_append_dropWhile
    rw [Option.getD_some, Option.getD_none, hback] at hmakes
    exact hmakes

end Tests

/-! ## Chunks -/

/-- The part of a list at a place, when it is cut into parts of one length. -/
def window (size : Nat) (xs : List Value) (i : Nat) : List Value :=
  (xs.drop (size * i)).take size

section Windows

variable {size count : Nat}

theorem length_window (xs : List Value) (i : Nat) :
    (window size xs i).length = min size (xs.length - size * i) := by
  simp [window]

theorem flatten_windows (xs : List Value) (count : Nat) :
    ((List.range count).map (window size xs)).flatten = xs.take (size * count) := by
  induction count with
  | zero => simp
  | succ count ih =>
    rw [List.range_succ, List.map_append, List.flatten_append, ih, Nat.mul_succ, List.take_add]
    simp [window]

theorem sliceList_window (xs : List Value) (i : Nat) :
    sliceList xs (0 + (size : Int) * i) (0 + (size : Int) * i + size) = window size xs i := by
  have hlow : (0 + (size : Int) * i) = ((size * i : Nat) : Int) := by push_cast; omega
  have hhigh : ((size * i : Nat) : Int) + size = ((size * i + size : Nat) : Int) := by
    push_cast; rfl
  rw [hlow, hhigh, sliceList, sliceBound_nat, sliceBound_nat, window]
  -- bounds that are cut to the list only leave out what is not there
  rcases Nat.le_total (size * i) xs.length with h | h
  · rw [Nat.min_eq_left h]
    apply List.take_eq_take_iff.2
    rw [List.length_drop]
    omega
  · rw [Nat.min_eq_right h, List.drop_length, List.drop_of_length_le h, List.take_nil,
      List.take_nil]

/-- As many parts as are needed cover the list, and the last of them is not empty. -/
theorem windows_cover (hsize : 1 ≤ size) (n : Nat) (hcount : count = (n + size - 1) / size) :
    n ≤ size * count ∧ ∀ i < count, size * i < n := by
  have hdiv := Nat.div_add_mod (n + size - 1) size
  have hmod := Nat.mod_lt (n + size - 1) hsize
  rw [← hcount] at hdiv
  refine ⟨by omega, fun i hi => ?_⟩
  have hnext : size * i + size ≤ size * count := Nat.mul_le_mul_left size hi
  omega

theorem windows_full (hcover : ∀ i < count, size * i < xs.length) :
    ∀ p ∈ ((List.range count).map (window size xs)).dropLast, p.length = size := by
  intro p hp
  rw [List.dropLast_eq_take, List.length_map, List.length_range, ← List.map_take,
    List.take_range] at hp
  obtain ⟨i, hi, rfl⟩ := List.mem_map.1 hp
  rw [List.mem_range] at hi
  have hnext : size * (i + 1) < xs.length := hcover (i + 1) (by omega)
  rw [Nat.mul_succ] at hnext
  rw [length_window]
  omega

theorem windows_last (hsize : 1 ≤ size) (hcover : ∀ i < count, size * i < xs.length) :
    ∀ p ∈ ((List.range count).map (window size xs)).getLast?, 1 ≤ p.length ∧ p.length ≤ size := by
  intro p hp
  have hmem := List.mem_of_getLast? hp
  obtain ⟨i, hi, rfl⟩ := List.mem_map.1 hmem
  have hlast := hcover i (List.mem_range.1 hi)
  rw [length_window]
  omega

end Windows

/-- Slices of an array, one after the other, are new arrays. -/
theorem mapM_slice {s : Setting} (hl : s.heap.cells[l]? = some (.array xs.toArray)) (size : Int)
    (places : List Int) :
    ∃ ls s₁, places.mapM (fun i => Action.slice (.array l) (some i) (some (i + size))) s =
        .ok (ls.map Value.array) s₁ ∧ s.Grows s₁ ∧
      List.Forall₂ (fun k i => s.heap.cells[k]? = none ∧
        s₁.heap.cells[k]? = some (.array (sliceList xs i (i + size)).toArray)) ls places := by
  induction places generalizing s with
  | nil => exact ⟨[], s, rfl, .refl s, .nil⟩
  | cons i places ih =>
    let c : Cell := .array (sliceList xs i (i + size)).toArray
    let s₁ : Setting := { s with heap := { s.heap with cells := s.heap.cells.push c } }
    have hgrows : s.Grows s₁ := .push s c
    have hslice : Action.slice (.array l) (some i) (some (i + size)) s =
        .ok (.array s.heap.cells.size) s₁ := by
      have hitems := Heap.items_eq hl
      have hrun : Action.slice (.array l) (some i) (some (i + size)) s =
        newArray (sliceArray (s.heap.items l) i (i + size)) s := rfl
      rw [hrun, hitems, sliceArray_toArray]
      rfl
    obtain ⟨ls, s₂, hrun, hlater, hparts⟩ := ih (hgrows.cells _ _ hl)
    refine ⟨s.heap.cells.size :: ls, s₂, ?_, hgrows.trans hlater, .cons ⟨by simp, ?_⟩ ?_⟩
    · rw [List.mapM_cons, bind_ok hslice, bind_ok hrun]
      rfl
    · exact hlater.cells _ _ (by simp [s₁, c])
    · exact hparts.imp fun k i hk => ⟨hgrows.fresh hk.1, hk.2⟩

theorem makesParts_chunk (hl : w.heap.cells[l]? = some (.array xs.toArray)) {size : Nat}
    (hsize : 1 ≤ size) :
    MakesParts (liftM (Library.chunk (.array l) (.int size))) w
      ((List.range ((xs.length + size - 1) / size)).map (window size xs)) := by
  have hcount : Library.rangeSize 0 xs.length size = (xs.length + size - 1) / size := by
    have hpositive : (0 : Int) < size := by omega
    have hsum : (xs.length : Int) - 0 + size - 1 = ((xs.length + size - 1 : Nat) : Int) := by omega
    rw [Library.rangeSize, if_pos hpositive, hsum, Int.fdiv_eq_ediv_of_nonneg _ hpositive.le]
    rfl
  obtain ⟨ls, s₁, hrun, hgrows, hparts⟩ := mapM_slice hl size (Library.numbers 0 xs.length size)
  let c : Cell := .array (ls.map Value.array).toArray
  let s₂ : Setting := { s₁ with heap := { s₁.heap with cells := s₁.heap.cells.push c } }
  have hlater : s₁.Grows s₂ := .push s₁ c
  have hchunk : Library.chunk (.array l) (.int size) w.toSetting =
      .ok (.array s₁.heap.cells.size) s₂ := by
    have hlength : length (.array l) w.toSetting = .ok (w.heap.items l).size w.toSetting := rfl
    have hpositive : ¬ (size : Int) = 0 := by omega
    rw [Heap.items_eq hl, List.size_toArray] at hlength
    rw [Library.chunk, bind_ok hlength]
    refine (bind_ok (rfl : _ = EStateM.Result.ok _ w.toSetting)).trans ?_
    rw [if_neg hpositive, bind_ok hrun]
    rfl
  refine ⟨_, ls, _, Routine.perform_ok hchunk, .of_setting (hgrows.trans hlater),
    hgrows.fresh (by simp), by simp [s₂, c], ?_⟩
  rw [Library.numbers, hcount, List.forall₂_map_right_iff] at hparts
  rw [List.forall₂_map_right_iff]
  refine hparts.imp fun k i hk => ⟨hk.1, ?_⟩
  rw [sliceList_window] at hk
  exact hlater.cells _ _ hk.2

/-! ## The parts make up the array -/

/-- An array is taken apart without loss, and is left as it is. What `take` and `drop` make of a
count of either sign are the first items and the others. What `takeWhile` and `dropWhile` make of a
function that decides are the items up to the first that fails and the others. What `partition`
makes of it are two arrays with the items that `filter` makes of the function and of its negation.
And what `chunk` makes are the parts of the array, all of the size that was asked for but the last
one, which may be shorter. -/
theorem parts_make_up_the_array (d : Nat) (hl : w.heap.cells[l]? = some (.array xs.toArray)) :
    (∀ n : Int, ∃ front back, front ++ back = xs ∧
      front.length = min (if n < 0 then n + xs.length else n).toNat xs.length ∧
      Makes (apply (d + 1) (.native (.core .take)) [.array l, .int n]) w front ∧
      Makes (apply (d + 1) (.native (.core .drop)) [.array l, .int n]) w back) ∧
    (∀ f test, Decides (apply d) f test xs w →
      (∃ front back, front ++ back = xs ∧ (∀ x ∈ front, test x = true) ∧
        (∀ x ∈ back.head?, test x = false) ∧
        Makes (apply (d + 1) (.native (.core .takeWhile)) [.array l, f]) w front ∧
        Makes (apply (d + 1) (.native (.core .dropWhile)) [.array l, f]) w back) ∧
      ∃ yes no, yes = xs.filter test ∧ no = xs.filter (fun x => !test x) ∧
        MakesParts (apply (d + 1) (.native (.core .partition)) [.array l, f]) w [yes, no] ∧
        Makes (apply (d + 1) (.native (.core .filter)) [.array l, f]) w yes ∧
        Makes (do
          let g ← apply (d + 1) (.native (.core .negate)) [f]
          apply (d + 2) (.native (.core .filter)) [.array l, g]) w no) ∧
    ∀ s : Int, 1 ≤ s → ∃ parts, parts.flatten = xs ∧ (∀ p ∈ parts.dropLast, (p.length : Int) = s) ∧
      (∀ p ∈ parts.getLast?, 1 ≤ p.length ∧ (p.length : Int) ≤ s) ∧
      MakesParts (apply (d + 1) (.native (.core .chunk)) [.array l, .int s]) w parts := by
  refine ⟨fun n => ?_, fun f test h => ⟨?_, ?_⟩, fun s hs => ?_⟩
  · refine ⟨_, _, List.take_append_drop (sliceBound xs.length n) xs, ?_,
      .core rfl (makes_take hl n), .core rfl (makes_drop hl n)⟩
    rw [List.length_take]
    exact Nat.min_eq_left (Nat.min_le_right _ _)
  · refine ⟨_, _, List.takeWhile_append_dropWhile, fun x hx => List.mem_takeWhile_imp hx, ?_,
      .core rfl (makes_takeWhile h hl), .core rfl (makes_dropWhile h hl)⟩
    intro x hx
    rw [← List.find?_not_eq_head?_dropWhile] at hx
    simpa using List.find?_some hx
  · refine ⟨_, _, rfl, rfl, .core rfl (makesParts_partition h hl),
      .core rfl (makes_filter h hl), ?_⟩
    -- the negation is a new function, which decides the opposite from then on
    have hnegate : apply (d + 1) (.native (.core .negate)) [f] w =
        .ok (.derived w.heap.cells.size) (w.pushCell (.derived (.negated f))) :=
      (apply_core rfl).trans rfl
    have hgrows := World.Extends.pushCell w (.derived (.negated f))
    have hopposite := (h.mono hgrows).negate (w.pushCell_new _)
    exact .after hnegate hgrows (.core rfl (makes_filter hopposite (hgrows.cell hl)))
  · obtain ⟨size, rfl⟩ := Int.eq_ofNat_of_zero_le (by omega : 0 ≤ s)
    have hsize : 1 ≤ size := by omega
    obtain ⟨hall, hcover⟩ := windows_cover hsize xs.length rfl
    refine ⟨_, ?_, fun p hp => ?_, fun p hp => ?_, .core rfl (makesParts_chunk hl hsize)⟩
    · rw [flatten_windows, List.take_of_length_le hall]
    · rw [windows_full hcover p hp]
    · obtain ⟨hone, hmost⟩ := windows_last hsize hcover p hp
      exact ⟨hone, by omega⟩

/-- A function that returns its argument decides which numbers are zero. -/
theorem Decides.echo {name : Option String} {scope : ScopeId} {k : Loc}
    (hk : w.code.functions[k]? = some ⟨name, ["x"], [.return (some (.name "x"))], scope⟩) (d : Nat)
    (numbers : List Int) :
    Decides (apply (d + 4)) (.function k) (fun x => decide (x.whole? ≠ some 0))
      (numbers.map Value.int) w := by
  intro w₁ hgrows x hx
  obtain ⟨n, -, rfl⟩ := List.mem_map.1 hx
  obtain ⟨s, -, hvars, hcall⟩ :=
    Closure.call_eq ⟨name, ["x"], [.return (some (.name "x"))], scope⟩ (d + 3) [.int n] w₁
  have hx : (w₁.pushScope s).code.lookup w₁.code.scopes.size "x" = some (.int n) := by
    simp [Code.lookup, Code.lookupFrom, World.pushScope, hvars, bound]
  refine ⟨.int n, w₁.pushScope s, ?_, .pushScope w₁ s, ?_⟩
  · exact (apply_function (hgrows.functions k _ hk)).trans (hcall.trans (catchReturn_name hx))
  · simp [Heap.truthy, Value.whole?]

/-- A world with an array of three numbers and a function that returns its argument. -/
def threeNumbers : World where
  heap := { cells := #[.array #[.int 3, .int 0, .int 5]] }
  code := { functions := #[⟨some "f", ["x"], [.return (some (.name "x"))], globalScope⟩] }

/-- All but the last number and the last one, and the numbers that are zero apart from the
others. -/
theorem threeNumbers_taken_apart :
    threeNumbers.heap.cells[0]? = some (.array [.int 3, .int 0, .int 5].toArray) ∧
    Makes (apply 9 (.native (.core .take)) [.array 0, .int (-1)]) threeNumbers [.int 3, .int 0] ∧
    Makes (apply 9 (.native (.core .drop)) [.array 0, .int (-1)]) threeNumbers [.int 5] ∧
    MakesParts (apply 9 (.native (.core .partition)) [.array 0, .function 0]) threeNumbers
      [[.int 3, .int 5], [.int 0]] := by
  have hl : threeNumbers.heap.cells[0]? = some (.array [.int 3, .int 0, .int 5].toArray) := rfl
  obtain ⟨hcounts, htests, -⟩ := parts_make_up_the_array 8 hl
  obtain ⟨front, back, hwhole, hlength, htake, hdrop⟩ := hcounts (-1)
  obtain ⟨-, yes, no, rfl, rfl, hpartition, -⟩ :=
    htests (.function 0) _ (Decides.echo rfl 4 [3, 0, 5])
  obtain ⟨rfl, rfl⟩ : front = [.int 3, .int 0] ∧ back = [.int 5] :=
    List.append_inj hwhole hlength
  exact ⟨hl, htake, hdrop, hpartition⟩

end ScriptLang
