import ScriptLang.Proofs.SavedTables

/-!
# Tables in the heap

A table of a database is an object with an array of records, and the records are objects too. This
module says what reading and changing such objects does, where the parts of a table stand, and what
the operations on tables find there. A computation that only reads ends in the setting it started
from.
-/

namespace ScriptLang

open ScriptLang.Action

/-! ## One cell of a setting -/

/-- A setting with another cell at a location. -/
def Setting.setCell (s : Setting) (l : Loc) (c : Cell) : Setting :=
  { s with heap := s.heap.set l c }

section

variable {s : Setting} {l k : Loc} {c c₀ : Cell}

theorem Setting.setCell_self (h : s.heap.cells[l]? = some c₀) :
    (s.setCell l c).heap.cells[l]? = some c := by
  obtain ⟨hl, -⟩ := Array.getElem?_eq_some_iff.1 h
  simp [Setting.setCell, Heap.set, hl]

theorem Setting.setCell_of_ne (h : k ≠ l) : (s.setCell l c).heap.cells[k]? = s.heap.cells[k]? := by
  simp [Setting.setCell, Heap.set, Array.getElem?_setIfInBounds_ne (Ne.symm h)]

theorem Setting.setCell_setCell (d : Cell) : (s.setCell l c).setCell l d = s.setCell l d := by
  simp [Setting.setCell, Heap.set]

theorem Setting.setCell_same (h : s.heap.cells[l]? = some c) : s.setCell l c = s := by
  obtain ⟨hl, hget⟩ := Array.getElem?_eq_some_iff.1 h
  have hset : s.heap.set l c = s.heap := by
    rw [Heap.set, Array.setIfInBounds, dif_pos hl, ← hget, Array.set_getElem_self]
  rw [Setting.setCell, hset]

theorem modifyCell_ok {f : Cell → Cell} (h : s.heap.cells[l]? = some c) :
    modifyCell l f s = .ok () (s.setCell l (f c)) := by
  have hcells : s.heap.cells.modify l f = s.heap.cells.setIfInBounds l (f c) := by
    ext i hi hi'
    · simp
    · rw [Array.getElem_modify, Array.getElem_setIfInBounds]
      split
      · next heq =>
        subst heq
        rw [(Array.getElem?_eq_some_iff.1 h).2]
      · rfl
  show EStateM.Result.ok () { s with heap := { s.heap with cells := s.heap.cells.modify l f } } = _
  rw [hcells]
  rfl

end

theorem modifyItems_ok {s : Setting} {l : Loc} {xs : Array Value} {f : Array Value → Array Value}
    (hl : s.heap.cells[l]? = some (.array xs)) :
    modifyItems l f s = .ok () (s.setCell l (.array (f xs))) :=
  (modifyItems_eq (Heap.hasParameters_of_array hl) f).trans (modifyCell_ok hl)

theorem Heap.items_congr {h h' : Heap} {l : Loc} (hl : h'.cells[l]? = h.cells[l]?) :
    h'.items l = h.items l := by
  rw [Heap.items, hl, Heap.items]

theorem Heap.entries_congr {h h' : Heap} {l : Loc} (hl : h'.cells[l]? = h.cells[l]?) :
    h'.entries l = h.entries l := by
  rw [Heap.entries, hl, Heap.entries]

/-! ## Objects and arrays -/

theorem Entries.not_has_of_get? {es : Entries} {k : Value} (h : es.get? k = none) :
    es.has k = false := by
  rw [Bool.eq_false_iff]
  intro hhas
  obtain ⟨v, hv⟩ := Entries.exists_get?_of_has hhas
  cases h.symm.trans hv

section

variable {s : Setting} {l : Loc} {k v : Value} {es : Entries}

theorem Value.eq_int_of_whole? {v : Value} {n : Int} (hn : 1 < n) (h : v.whole? = some n) :
    v = .int n := by
  cases v with
  | int m => rw [Option.some.inj h]
  | bool b => cases b <;> cases h <;> contradiction
  | _ => cases h

theorem hashable_ok (hk : k.unhashable? = none) : hashable k s = .ok () s := by
  rw [hashable, hk]
  rfl

theorem contains_object (hk : k.unhashable? = none) :
    contains (.object l) k s = .ok ((s.heap.entries l).has k) s :=
  (bind_ok (hashable_ok hk)).trans rfl

theorem contains_unhashable {type : String} (hk : k.unhashable? = some type) :
    contains (.object l) k s = .error (.fault (.unhashable type)) s := by
  refine bind_error ?_
  rw [hashable, hk]
  rfl

theorem getItem_object (hk : k.unhashable? = none) (hv : (s.heap.entries l).get? k = some v) :
    getItem (.object l) k s = .ok v s := by
  refine (bind_ok (hashable_ok hk)).trans ?_
  refine (bind_ok (rfl : entries l s = .ok (s.heap.entries l) s)).trans ?_
  rw [hv]
  rfl

theorem setItem_object (hk : k.unhashable? = none) (hl : s.heap.cells[l]? = some (.object es)) :
    setItem (.object l) k v s = .ok () (s.setCell l (.object (es.put k v))) :=
  (bind_ok (hashable_ok hk)).trans (modifyCell_ok hl)

/-- Setting several items of an object merges them into its entries. -/
theorem setItems_object {us : Entries} (hus : ∀ e ∈ us, e.1.unhashable? = none)
    (hl : s.heap.cells[l]? = some (.object es)) :
    (us.forM fun e => setItem (.object l) e.1 e.2) s =
      .ok () (s.setCell l (.object (es.merge us))) := by
  induction us generalizing s es with
  | nil =>
    rw [Entries.merge, List.foldl_nil, Setting.setCell_same hl]
    rfl
  | cons e us ih =>
    rw [List.forall_mem_cons] at hus
    refine (bind_ok (setItem_object hus.1 hl)).trans ?_
    refine (ih hus.2 (Setting.setCell_self hl)).trans ?_
    rw [Setting.setCell_setCell]
    rfl

theorem iterate_array (l : Loc) : iterate (.array l) s = .ok (s.heap.items l).toList s :=
  rfl

theorem length_array (l : Loc) : length (.array l) s = .ok (s.heap.items l).size s :=
  rfl

end

/-! ## Computations that only read -/

theorem Still.bind_congr {α β : Type} {s : Setting} {x : Routine α} {f g : α → Routine β}
    (hx : Still x) (h : ∀ a, f a s = g a s) : (x >>= f) s = (x >>= g) s := by
  obtain ⟨e, s', hrun, rfl, -⟩ | ⟨a, s', hrun, rfl, -⟩ := hx.cases (s := s) trivial
  · rw [bind_error hrun, bind_error hrun]
  · rw [bind_ok hrun, bind_ok hrun, h]

/-- Where a test answers in the same setting for all items, so does the loop that keeps those that
pass. -/
theorem filterM_ok {α : Type} {s : Setting} {f : α → Routine Bool} {p : α → Bool} {xs : List α}
    (h : ∀ x ∈ xs, f x s = .ok (p x) s) : xs.filterM f s = .ok (xs.filter p) s := by
  have loop (rest acc : List α) (hrest : ∀ x ∈ rest, f x s = .ok (p x) s) :
      rest.filterAuxM f acc s = .ok ((rest.filter p).reverse ++ acc) s := by
    induction rest generalizing acc with
    | nil => rfl
    | cons x rest ih =>
      rw [List.forall_mem_cons] at hrest
      refine (bind_ok hrest.1).trans ((ih _ hrest.2).trans ?_)
      cases hp : p x <;> simp [hp]
  refine (bind_ok (loop xs [] h)).trans ?_
  simp
  rfl

namespace Package

/-! ## Where a table stands -/

/-- A table of a database stands in the heap: its object, its array, and its records, which are
objects. -/
structure TableAt (s : Setting) (id : Nat) (name : Value) (table data : Loc) (rows : List Loc) :
    Prop where
  key : name.unhashable? = none
  database : ∃ d tables, s.databases.databases[id]? = some d ∧ d.tables = .object tables ∧
    (s.heap.entries tables).get? name = some (.object table)
  array : (s.heap.entries table).field? "data" = some (.array data)
  cell : s.heap.cells[data]? = some (.array (rows.map Value.object).toArray)
  objects : ∀ r ∈ rows, ∃ es, s.heap.cells[r]? = some (.object es)

namespace TableAt

variable {s : Setting} {id : Nat} {name : Value} {table data : Loc} {rows : List Loc}
  (h : TableAt s id name table data rows)

include h

theorem tableOf_ok : tableOf id name s = .ok (.object table) s := by
  obtain ⟨d, tables, hd, htables, hget⟩ := h.database
  refine (bind_ok (databaseAt_ok hd)).trans ?_
  rw [htables]
  refine (bind_ok (contains_object h.key)).trans ?_
  rw [if_pos (Entries.has_of_get? hget)]
  exact getItem_object h.key hget

theorem recordsOf_ok : recordsOf id name s = .ok (.array data) s :=
  (bind_ok h.tableOf_ok).trans (getItem_object rfl h.array)

theorem iterate_ok : iterate (.array data) s = .ok (rows.map Value.object) s := by
  rw [iterate_array, Heap.items_eq h.cell]

end TableAt

end Package

end ScriptLang
