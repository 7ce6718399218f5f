import ScriptLang.Proofs.Growth

/-!
# Flattening

A nested array without cycles is a tree, whose leaves are the values that are no arrays. Flattening
it to a depth opens its items level by level (`opened`), and so does flattening it all the way,
until only leaves are left. This is so for arrays that are nested no deeper than values may be;
others are opened to a depth below that bound, and refused otherwise.
-/

namespace ScriptLang

open ScriptLang.Action
open Library (opensAt flattenStep flattenInto)

/-! ## Nested arrays as trees -/

/-- What a value is made of: a value that is no array, or an array and what its items are made
of. -/
inductive Nest where
  | leaf (v : Value)
  | node (l : Loc) (items : List Nest)

namespace Nest

def value : Nest → Value
  | leaf v => v
  | node l _ => .array l

mutual

/-- How deep arrays are nested. -/
def height : Nest → Nat
  | leaf _ => 0
  | node _ xs => heights xs + 1

/-- How deep arrays are nested at most in some of a list. -/
def heights : List Nest → Nat
  | [] => 0
  | x :: xs => max x.height (heights xs)

end

mutual

/-- The values that are no arrays, from left to right. -/
def leaves : Nest → List Value
  | leaf v => [v]
  | node _ xs => leavesOf xs

/-- The values that are no arrays, from left to right, in all of a list. -/
def leavesOf : List Nest → List Value
  | [] => []
  | x :: xs => x.leaves ++ leavesOf xs

end

/-- The items of an array in its place. -/
def opens : Nest → List Nest
  | leaf v => [leaf v]
  | node _ xs => xs

/-- A list with the items of its arrays in their place, a number of times. -/
def opened (n : Nat) : List Nest → List Nest :=
  (List.flatMap opens)^[n]

variable {x : Nest} {xs ys : List Nest} {n : Nat}

@[simp]
theorem opened_zero (xs : List Nest) : opened 0 xs = xs :=
  rfl

theorem opened_succ (n : Nat) (xs : List Nest) : opened (n + 1) xs = opened n (xs.flatMap opens) :=
  Function.iterate_succ_apply ..

theorem opened_add (m n : Nat) (xs : List Nest) : opened (m + n) xs = opened n (opened m xs) := by
  rw [Nat.add_comm]
  exact Function.iterate_add_apply ..

theorem opened_append (n : Nat) (xs ys : List Nest) :
    opened n (xs ++ ys) = opened n xs ++ opened n ys := by
  induction n generalizing xs ys with
  | zero => rfl
  | succ n ih => simp only [opened_succ, List.flatMap_append, ih]

@[simp]
theorem opened_nil (n : Nat) : opened n [] = [] := by
  induction n with
  | zero => rfl
  | succ n ih => rw [opened_succ, List.flatMap_nil, ih]

theorem opened_leaf (n : Nat) (v : Value) : opened n [leaf v] = [leaf v] := by
  induction n with
  | zero => rfl
  | succ n ih =>
    rw [opened_succ]
    exact ih

theorem opened_leaf_cons (n : Nat) (v : Value) (xs : List Nest) :
    opened n (leaf v :: xs) = leaf v :: opened n xs := by
  rw [← List.singleton_append, opened_append, opened_leaf, List.singleton_append]

theorem opened_node_cons (n : Nat) (l : Loc) (xs ys : List Nest) :
    opened (n + 1) (node l xs :: ys) = opened n xs ++ opened (n + 1) ys := by
  rw [opened_succ, List.flatMap_cons, opened_append, ← opened_succ]
  rfl

theorem leavesOf_append (xs ys : List Nest) : leavesOf (xs ++ ys) = leavesOf xs ++ leavesOf ys := by
  induction xs with
  | nil => simp [leavesOf]
  | cons x xs ih => simp [leavesOf, ih]

theorem heights_append (xs ys : List Nest) :
    heights (xs ++ ys) = max (heights xs) (heights ys) := by
  induction xs with
  | nil => simp [heights]
  | cons x xs ih => simp [heights, ih, Nat.max_assoc]

theorem leavesOf_opens (x : Nest) : leavesOf x.opens = x.leaves := by
  cases x <;> simp [opens, leaves, leavesOf]

theorem heights_opens (x : Nest) : heights x.opens = x.height - 1 := by
  cases x <;> simp [opens, height, heights]

theorem leavesOf_flatMap_opens (xs : List Nest) : leavesOf (xs.flatMap opens) = leavesOf xs := by
  induction xs with
  | nil => rfl
  | cons x xs ih => rw [List.flatMap_cons, leavesOf_append, leavesOf_opens, ih, leavesOf]

theorem heights_flatMap_opens (xs : List Nest) : heights (xs.flatMap opens) = heights xs - 1 := by
  induction xs with
  | nil => rfl
  | cons x xs ih =>
    rw [List.flatMap_cons, heights_append, heights_opens, ih, heights]
    omega

theorem heights_opened (n : Nat) (xs : List Nest) : heights (opened n xs) = heights xs - n := by
  induction n generalizing xs with
  | zero => rfl
  | succ n ih =>
    rw [opened_succ, ih, heights_flatMap_opens]
    omega

/-- Without arrays there are only leaves. -/
theorem eq_leaves_of_heights (h : heights xs = 0) : xs = (leavesOf xs).map leaf := by
  induction xs with
  | nil => rfl
  | cons x xs ih =>
    rw [heights] at h
    cases x with
    | leaf v => rw [leavesOf, leaves, List.map_append, ← ih (by omega)]; rfl
    | node l ys => simp [height] at h

/-- When all levels are opened, the leaves are left. -/
theorem opened_of_le (h : heights xs ≤ n) : opened n xs = (leavesOf xs).map leaf := by
  induction n generalizing xs with
  | zero => exact eq_leaves_of_heights (Nat.le_zero.1 h)
  | succ n ih =>
    have hless : heights (xs.flatMap opens) ≤ n := by
      rw [heights_flatMap_opens]
      omega
    rw [opened_succ, ih hless, leavesOf_flatMap_opens]

theorem map_value_leaves (vs : List Value) : (vs.map leaf).map value = vs := by
  simp [Function.comp_def, value]

end Nest

open Nest

/-- What a tree says of the values in a heap is so. -/
inductive Heap.Shows (h : Heap) : Nest → Prop
  | leaf {v : Value} (hv : ∀ l, v ≠ .array l) : h.Shows (.leaf v)
  | node {l : Loc} {xs : List Nest} (hl : h.cells[l]? = some (.array (xs.map value).toArray))
      (hxs : ∀ x ∈ xs, h.Shows x) : h.Shows (.node l xs)

namespace Heap.Shows

variable {h h' : Heap} {x : Nest} {l : Loc} {xs : List Nest} {n : Nat}

theorem mono (hx : h.Shows x) (hgrows : ∀ (l : Loc) (c : Cell), h.cells[l]? = some c →
    h'.cells[l]? = some c) : h'.Shows x := by
  induction hx with
  | leaf hv => exact .leaf hv
  | node hl _ ih => exact .node (hgrows _ _ hl) ih

theorem cell (hx : h.Shows (.node l xs)) : h.cells[l]? = some (.array (xs.map value).toArray) := by
  cases hx
  assumption

theorem items (hx : h.Shows (.node l xs)) : ∀ x ∈ xs, h.Shows x := by
  cases hx
  assumption

theorem opened (hxs : ∀ x ∈ xs, h.Shows x) : ∀ x ∈ Nest.opened n xs, h.Shows x := by
  induction n generalizing xs with
  | zero => exact hxs
  | succ n ih =>
    rw [opened_succ]
    apply ih
    intro y hy
    obtain ⟨x, hx, hyx⟩ := List.mem_flatMap.1 hy
    cases hxs x hx with
    | leaf hv =>
      rw [List.mem_singleton.1 hyx]
      exact .leaf hv
    | node _ hys => exact hys y hyx

/-- No leaf is an array. -/
theorem leaves_ne_array (hx : h.Shows x) {v : Value} (hv : v ∈ x.leaves) (l : Loc) :
    v ≠ .array l := by
  have inList {xs : List Nest} (hxs : ∀ x ∈ xs, v ∈ x.leaves → v ≠ .array l)
      (hv : v ∈ leavesOf xs) : v ≠ .array l := by
    induction xs with
    | nil => simp [leavesOf] at hv
    | cons x xs ih =>
      rw [leavesOf, List.mem_append] at hv
      rcases hv with hv | hv
      · exact hxs x List.mem_cons_self hv
      · exact ih (fun y hy => hxs y (List.mem_cons_of_mem _ hy)) hv
  induction hx with
  | leaf hleaf =>
    rw [leaves, List.mem_singleton] at hv
    exact hv ▸ hleaf l
  | node _ _ ih =>
    rw [leaves] at hv
    exact inList ih hv

end Heap.Shows

/-! ## The recursion -/

theorem opensAt_int (d level : Nat) (s : Setting) :
    opensAt (.int d) level s = .ok (decide (level < d)) s := by
  refine (ordered_lt level d s).trans ?_
  simp only [Int.ofNat_lt]

variable {s : Setting} {w : World} {l : Loc} {xs : List Nest} {depth : Value}

theorem flattenStep_leaf {level : Nat} {inner : List Value → List Value → Routine (List Value)}
    {v : Value} (hv : ∀ l, v ≠ .array l) (acc : List Value) :
    flattenStep depth level inner acc v s = .ok (v :: acc) s := by
  cases v with
  | array l => exact absurd rfl (hv l)
  | _ => rfl

theorem flattenStep_array {level : Nat} (inner : List Value → List Value → Routine (List Value))
    {opens : Bool} (hopens : opensAt depth level s = .ok opens s) (acc : List Value) :
    flattenStep depth level inner acc (.array l) s =
      if opens then inner (s.heap.items l).toList acc s else .ok (.array l :: acc) s := by
  refine (bind_ok hopens).trans ?_
  cases opens <;> rfl

/-- Arrays at the first `n` levels are opened, and the others are kept. The recursion goes one level
deeper than the arrays that it opens, and fails where it has no levels left for that. -/
theorem flattenInto_eq {fuel level n : Nat} (hxs : ∀ x ∈ xs, s.heap.Shows x)
    (hopens : ∀ k < heights xs, opensAt depth (level + k) s = .ok (decide (k < n)) s)
    (acc : List Value) :
    flattenInto depth fuel level (xs.map value) acc s =
      if min (heights xs) n < fuel then .ok (((opened n xs).map value).reverse ++ acc) s
      else .error (.fault .tooDeep) s := by
  -- by induction on the levels left, and for each on the list
  induction fuel generalizing level n xs acc with
  | zero => rfl
  | succ fuel outer =>
    rw [flattenInto]
    induction xs generalizing acc with
    | nil =>
      rw [if_pos (by simp [heights]), opened_nil]
      rfl
    | cons x xs inner =>
      have hrest := inner (fun y hy => hxs y (List.mem_cons_of_mem _ hy))
        (fun k hk => hopens k (by rw [heights]; omega))
      rw [List.map_cons, List.foldlM_cons]
      cases hxs x List.mem_cons_self with
      | @leaf v hv =>
        refine (bind_ok (flattenStep_leaf hv acc)).trans ?_
        rw [hrest, opened_leaf_cons, heights, height, Nat.zero_max, List.map_cons,
          List.reverse_cons, List.append_assoc]
        rfl
      | @node l ys hl hys =>
        have hheights : heights (node l ys :: xs) = max (heights ys + 1) (heights xs) := by
          rw [heights, height]
        have hstep := flattenStep_array (l := l) (flattenInto depth fuel (level + 1))
          (hopens 0 (by omega)) acc
        cases n with
        | zero =>
          refine (bind_ok hstep).trans ?_
          rw [hrest, hheights, if_pos (by omega), if_pos (by omega)]
          simp [value]
        | succ n =>
          have hopen := outer hys (fun k hk => by
            have hlater := hopens (k + 1) (by omega)
            rwa [← Nat.add_assoc, Nat.add_right_comm,
              decide_eq_decide.2 Nat.succ_lt_succ_iff] at hlater) acc
          rw [Heap.items_eq hl] at hstep
          rw [hheights]
          by_cases hfits : min (heights ys) n < fuel
          · rw [if_pos hfits] at hopen
            refine (bind_ok (hstep.trans hopen)).trans ?_
            have hsame : min (max (heights ys + 1) (heights xs)) (n + 1) < fuel + 1 ↔
                min (heights xs) (n + 1) < fuel + 1 := by omega
            rw [hrest, opened_node_cons]
            simp only [hsame, List.map_append, List.reverse_append, List.append_assoc]
          · rw [if_neg hfits] at hopen
            rw [if_neg (by omega)]
            exact bind_error (hstep.trans hopen)

/-- An array whose first `n` levels are opened gives a new array, unless the recursion goes too
deep. -/
theorem flatten_cases {n : Nat} (ha : w.heap.Shows (.node l xs))
    (hopens : ∀ k < heights xs, opensAt depth k w.toSetting = .ok (decide (k < n)) w.toSetting) :
    (min (heights xs) n < valueDepth →
      Makes (liftM (Library.flatten (.array l) depth)) w ((opened n xs).map value)) ∧
    (valueDepth ≤ min (heights xs) n →
      (liftM (Library.flatten (.array l) depth) : Action Value) w =
        .error (.fault .tooDeep) w) := by
  have hrun : flattenInto depth valueDepth 0 (xs.map value) [] w.toSetting = _ :=
    flattenInto_eq (n := n) ha.items (fun k hk => by rw [Nat.zero_add, hopens k hk]) []
  have hitems : iterate (.array l) w.toSetting = .ok (xs.map value) w.toSetting := by
    have hread : iterate (.array l) w.toSetting = .ok (w.heap.items l).toList w.toSetting := rfl
    rw [hread, Heap.items_eq ha.cell]
  constructor
  · intro hfits
    rw [if_pos hfits, List.append_nil] at hrun
    refine (makes_newArray _ w).lift ?_
    rw [Library.flatten, bind_ok hitems, bind_ok hrun, arrayOf, List.reverse_reverse]
  · intro hdeep
    rw [if_neg (by omega)] at hrun
    have hflatten : Library.flatten (.array l) depth w.toSetting =
        .error (.fault .tooDeep) w.toSetting := by
      rw [Library.flatten, bind_ok hitems, bind_error hrun]
    exact Routine.perform_error hflatten

/-! ## The laws of flattening -/

/-- A call of `flatten`, to a depth or without one. -/
def flattened (levels : Nat) (a : Value) (depth : Option Nat) : Action Value :=
  apply (levels + 1) (.native (.core .flatten)) (a :: (depth.map fun d => Value.int d).toList)

theorem flattened_to (levels d : Nat) (ha : w.heap.Shows (.node l xs)) :
    (min (heights xs) d < valueDepth →
      Makes (flattened levels (.array l) (some d)) w ((opened d xs).map value)) ∧
    (valueDepth ≤ min (heights xs) d →
      flattened levels (.array l) (some d) w = .error (.fault .tooDeep) w) := by
  obtain ⟨hmakes, hdeep⟩ := flatten_cases ha fun k _ => opensAt_int d k w.toSetting
  exact ⟨fun h => .core rfl (hmakes h), fun h => apply_core_eq rfl (hdeep h)⟩

theorem flattened_all (levels : Nat) (ha : w.heap.Shows (.node l xs)) :
    (heights xs < valueDepth → Makes (flattened levels (.array l) none) w (leavesOf xs)) ∧
    (valueDepth ≤ heights xs → flattened levels (.array l) none w =
      .error (.fault .tooDeep) w) := by
  have hopens (k : Nat) (hk : k < heights xs) :
      opensAt .null k w.toSetting = .ok (decide (k < heights xs)) w.toSetting := by
    rw [decide_eq_true hk]
    rfl
  obtain ⟨hmakes, hdeep⟩ := flatten_cases ha hopens
  rw [opened_of_le (Nat.le_refl _), map_value_leaves, Nat.min_self] at hmakes
  rw [Nat.min_self] at hdeep
  exact ⟨fun h => .core rfl (hmakes h), fun h => apply_core_eq rfl (hdeep h)⟩

/-- Flattening composes by depth. Let `a` be a nested array without cycles. Where
`flatten(a, d + e)` is not refused, it makes the array that `flatten(flatten(a, d), e)` makes;
`flatten(a, 0)` makes an array of the items of `a`; and if `a` is nested no deeper than values may
be, `flatten(a)` makes an array of its leaves from left to right, none of which is an array, and so
does `flatten(a, d)` for any `d` that is not less than the depth of `a`. An array that is nested
deeper is refused without a depth, and with one that is too large. -/
theorem flattening_composes_by_depth (levels : Nat) (ha : w.heap.Shows (.node l xs)) (d e : Nat) :
    ((node l xs).height ≤ valueDepth ∨ d + e < valueDepth → ∃ vs,
      Makes (do flattened levels (← flattened levels (.array l) (some d)) (some e)) w vs ∧
      Makes (flattened levels (.array l) (some (d + e))) w vs) ∧
    Makes (flattened levels (.array l) (some 0)) w (xs.map value) ∧
    ((node l xs).height ≤ valueDepth →
      Makes (flattened levels (.array l) none) w (node l xs).leaves ∧
      ((node l xs).height ≤ d + 1 →
        Makes (flattened levels (.array l) (some d)) w (node l xs).leaves)) ∧
    (∀ v ∈ (node l xs).leaves, ∀ k, v ≠ .array k) ∧
    (valueDepth < (node l xs).height →
      flattened levels (.array l) none w = .error (.fault .tooDeep) w ∧
      (valueDepth ≤ d → flattened levels (.array l) (some d) w = .error (.fault .tooDeep) w)) := by
  have hheight : (node l xs).height = heights xs + 1 := by rw [height]
  have hleaves : (node l xs).leaves = leavesOf xs := by rw [leaves]
  rw [hheight, hleaves]
  refine ⟨fun hfits => ?_, ?_, fun hfits => ⟨?_, fun hd => ?_⟩, ?_, fun hdeep => ⟨?_, fun hd => ?_⟩⟩
  · refine ⟨_, ?_, (flattened_to levels (d + e) ha).1 (by omega)⟩
    -- the array that the first call makes is a tree again, of what it has opened
    obtain ⟨k, w₁, hfirst, hgrows, -, hk⟩ := (flattened_to levels d ha).1 (by omega)
    have hshows : w₁.heap.Shows (.node k (opened d xs)) :=
      .node hk fun x hx => (Heap.Shows.opened ha.items x hx).mono hgrows.setting.cells
    have hsecond := (flattened_to levels e hshows).1 (by rw [heights_opened]; omega)
    rw [← opened_add] at hsecond
    exact .after hfirst hgrows hsecond
  · exact (flattened_to levels 0 ha).1 (by rw [Nat.min_zero, valueDepth]; omega)
  · exact (flattened_all levels ha).1 (by omega)
  · have hall := (flattened_to levels d ha).1 (by omega)
    rwa [opened_of_le (by omega), map_value_leaves] at hall
  · intro v hv k
    exact ha.leaves_ne_array (hleaves ▸ hv) k
  · exact (flattened_all levels ha).2 (by omega)
  · exact (flattened_to levels d ha).2 (by omega)

/-! ## Towers -/

/-- A world with a number in an array, in an array and so on. -/
def tower : Nat → World
  | 0 => { heap := { cells := #[.array #[.int 7]] } }
  | n + 1 => (tower n).pushCell (.array #[.array n])

def towerNest : Nat → Nest
  | 0 => node 0 [leaf (.int 7)]
  | n + 1 => node (n + 1) [towerNest n]

theorem size_tower (n : Nat) : (tower n).heap.cells.size = n + 1 := by
  induction n with
  | zero => rfl
  | succ n ih => simp [tower, World.pushCell, ih]

theorem value_towerNest (n : Nat) : (towerNest n).value = .array n := by
  cases n <;> rfl

theorem height_towerNest (n : Nat) : (towerNest n).height = n + 1 := by
  induction n with
  | zero => rfl
  | succ n ih => rw [towerNest, height, heights, heights, ih, Nat.max_zero]

theorem leaves_towerNest (n : Nat) : (towerNest n).leaves = [.int 7] := by
  induction n with
  | zero => rfl
  | succ n ih => rw [towerNest, leaves, leavesOf, leavesOf, ih, List.append_nil]

theorem tower_shows (n : Nat) : (tower n).heap.Shows (towerNest n) := by
  induction n with
  | zero =>
    refine .node rfl fun x hx => ?_
    rw [List.mem_singleton.1 hx]
    exact .leaf nofun
  | succ n ih =>
    have hnew := (tower n).pushCell_new (.array #[.array n])
    rw [size_tower] at hnew
    refine .node ?_ fun x hx => ?_
    · rw [List.map_singleton, value_towerNest]
      exact hnew
    · rw [List.mem_singleton.1 hx]
      exact ih.mono (World.Extends.pushCell (tower n) _).setting.cells

/-- Three levels are flattened at once, or one after the other. -/
theorem tower_flattened :
    (tower 2).heap.Shows (towerNest 2) ∧
    Makes (flattened 8 (.array 2) none) (tower 2) [.int 7] ∧
    ∃ vs, Makes (do flattened 8 (← flattened 8 (.array 2) (some 1)) (some 1)) (tower 2) vs ∧
      Makes (flattened 8 (.array 2) (some 2)) (tower 2) vs := by
  have hshows := tower_shows 2
  have hheight : (towerNest 2).height ≤ valueDepth := by
    rw [height_towerNest, valueDepth]
    omega
  obtain ⟨hsum, -, hall, -⟩ := flattening_composes_by_depth 8 hshows 1 1
  refine ⟨hshows, ?_, hsum (.inl hheight)⟩
  have hleaves := (hall hheight).1
  rwa [← towerNest, leaves_towerNest] at hleaves

/-- With two thousand levels around the innermost array, the one leaf is not reached. -/
theorem tower_refused :
    (tower 2000).heap.Shows (towerNest 2000) ∧ (towerNest 2000).leaves = [.int 7] ∧
    flattened 8 (.array 2000) none (tower 2000) = .error (.fault .tooDeep) (tower 2000) := by
  have hshows := tower_shows 2000
  refine ⟨hshows, leaves_towerNest 2000, (flattened_all 8 hshows).2 ?_⟩
  rw [heights, heights, height_towerNest, Nat.max_zero]
  exact Nat.le_of_ble_eq_true rfl

end ScriptLang
