import ScriptLang.Proofs.Effects
import ScriptLang.Proofs.Entries

/-!
# Index assignment

An index means a slot: an item of an array or an entry of an object. Reading and assigning resolve
an index in the same way, so a slot that was assigned reads as the value it was given, as long as
the assignment does not change what the index stands for. Nothing else changes: no other slot, no
length and no order of keys.
-/

namespace ScriptLang

open ScriptLang.Action

variable {s : Setting} {c k : Value}

/-! ## Slots -/

/-- What an index can mean: an item of an array, or an entry of an object. -/
inductive Slot where
  | item (l : Loc) (i : Nat)
  | entry (l : Loc) (key : Value)

namespace Slot

/-- The container that a slot is in. -/
def loc : Slot → Loc
  | .item l _ | .entry l _ => l

/-- The value in a slot. -/
def read (h : Heap) : Slot → Option Value
  | .item l i => (h.items l)[i]?
  | .entry l key => (h.entries l).get? key

/-- The container of a slot with another value there. -/
def change (v : Value) : Slot → Cell → Cell
  | .item _ i, .array xs => .array (xs.setIfInBounds i v)
  | .entry _ key, .object es => .object (es.put key v)
  | _, c => c

/-- The heap with another value in a slot. -/
def write (h : Heap) (v : Value) (slot : Slot) : Heap :=
  { h with cells := h.cells.modify slot.loc (slot.change v) }

end Slot

/-- The slot that an index means in a container: the item at a whole number, counted from either
end, or the entry at a text. -/
def Setting.slot? (s : Setting) (container index : Value) : Option Slot :=
  match container with
  | .array l =>
      match index.toInt with
      | .error _ => none
      | .ok n =>
          if n < indexLimit && -indexLimit ≤ n then (place? (s.heap.items l).size n).map (.item l)
          else none
  | .object l =>
      match s.text index with
      | .error _ => none
      | .ok key =>
          if (s.heap.entries l).has (.text key) then some (.entry l (.text key)) else none
  | _ => none

variable {n : Int} {slot : Slot}

theorem lt_of_place? {size i : Nat} (h : place? size n = some i) : i < size := by
  unfold place? at h
  dsimp only at h
  split at h <;> grind

/-- The two kinds of slots that an index can mean, with how it is resolved. -/
theorem Setting.slot?_cases (h : s.slot? c k = some slot) :
    (∃ l n i, c = .array l ∧ slot = .item l i ∧ k.toInt = .ok n ∧
      smallIndex .index n = .ok n ∧ place? (s.heap.items l).size n = some i) ∨
    ∃ l key, c = .object l ∧ slot = .entry l (.text key) ∧ s.text k = .ok key ∧
      (s.heap.entries l).has (.text key) = true := by
  unfold Setting.slot? at h
  split at h
  · next l =>
    split at h
    · contradiction
    · next n hn =>
      split at h
      · next hsmall =>
        obtain ⟨i, hi, rfl⟩ := Option.map_eq_some_iff.1 h
        exact .inl ⟨l, n, i, rfl, rfl, hn, by rw [smallIndex, if_pos hsmall], hi⟩
      · contradiction
  · next l =>
    split at h
    · contradiction
    · next key hkey =>
      split at h
      · next hhas => exact .inr ⟨l, key, rfl, (Option.some.inj h).symm, hkey, hhas⟩
      · contradiction
  · contradiction

/-! ## Reading and assigning resolve indexes alike -/

theorem placeIn_ok {type : String} {size i : Nat} (hsmall : smallIndex .index n = .ok n)
    (hplace : place? size n = some i) : placeIn type size (.int n) s = .ok i s := by
  have hindex : ofExcept (smallIndex .index n) s = .ok n s := by
    rw [hsmall]
    rfl
  refine (bind_ok hindex).trans ?_
  simp only [hplace]
  rfl

theorem indexFault_ok {α : Type} {what : String} {act : Routine α} {s₁ : Setting} {a : α}
    (h : act s = .ok a s₁) : indexFault what act s = .ok a s₁ := by
  show EStateM.tryCatch act _ s = _
  unfold EStateM.tryCatch
  rw [h]

theorem indexFault_error {α : Type} {what : String} {act : Routine α} {f : Fault} {s₁ s₂ : Setting}
    {a : α} (h : act s = .error (.fault f) s₁) : indexFault what act s ≠ .ok a s₂ := by
  show EStateM.tryCatch act _ s ≠ _
  unfold EStateM.tryCatch
  rw [h]
  show (if f.kind = .index || f.kind = .value then fail (.badIndex what f.message) else fail f :
    Routine α) s₁ ≠ _
  split <;> exact nofun

theorem toInt_ok (h : k.toInt = .ok n) : toInt k s = .ok n s := by
  rw [toInt, h]
  rfl

theorem text_ok {key : String} (h : s.text k = .ok key) : text k s = .ok key s := by
  show ofExcept (s.text k) s = _
  rw [h]
  rfl

theorem text_error {e : Fault} (h : s.text k = .error e) : text k s = .error (.fault e) s := by
  show ofExcept (s.text k) s = _
  rw [h]
  rfl

theorem indexValue_slot (h : s.slot? c k = some slot) :
    ∃ v, slot.read s.heap = some v ∧ indexValue c k s = .ok v s := by
  rcases Setting.slot?_cases h with
    ⟨l, n, i, rfl, rfl, hn, hsmall, hplace⟩ | ⟨l, key, rfl, rfl, hkey, hhas⟩
  · have hi : i < (s.heap.items l).size := lt_of_place? hplace
    refine ⟨(s.heap.items l)[i], Array.getElem?_eq_getElem hi, indexFault_ok ?_⟩
    refine (bind_ok (toInt_ok hn)).trans ((bind_ok rfl).trans ?_)
    refine (bind_ok (placeIn_ok hsmall hplace)).trans ?_
    rw [Array.getD_eq_getD_getElem?, Array.getElem?_eq_getElem hi]
    rfl
  · obtain ⟨v, hv⟩ := Entries.exists_get?_of_has hhas
    refine ⟨v, hv, ?_⟩
    refine (bind_ok (text_ok hkey)).trans ?_
    show EStateM.Result.ok (((s.heap.entries l).get? (.text key)).getD .null) s = _
    rw [hv]
    rfl

/-- Reading at an index gives an item of an array, other than the parameters of a function, or there
is an entry of an object at its text. -/
def Setting.Finds (s : Setting) (container index : Value) : Prop :=
  (∃ l v, container = .array l ∧ s.heap.hasParameters l = false ∧
      indexValue container index s = .ok v s) ∨
    ∃ l key, container = .object l ∧ s.text index = .ok key ∧
      (s.heap.entries l).has (.text key) = true

/-- A value is no list of the parameters of a function, which cannot be assigned. -/
def Heap.Assignable (h : Heap) (c : Value) : Prop :=
  ∀ l, c = .array l → h.hasParameters l = false

theorem Setting.Finds.assignable (h : s.Finds c k) : s.heap.Assignable c := by
  rintro l rfl
  rcases h with ⟨l', v, hl, hown, -⟩ | ⟨l', key, hl, -⟩
  · cases hl
    exact hown
  · contradiction

theorem Setting.Finds.slot? (h : s.Finds c k) : ∃ slot, s.slot? c k = some slot := by
  unfold Setting.slot?
  rcases h with ⟨l, v, rfl, -, hread⟩ | ⟨l, key, rfl, hkey, hhas⟩
  · cases hn : k.toInt with
    | error f =>
      have hfails : toInt k s = .error (.fault f) s := by
        rw [toInt, hn]
        rfl
      exact absurd hread (indexFault_error (bind_error hfails))
    | ok n =>
      -- an index outside the array fails, and with it the reading
      have outside {f : Fault}
          (hat : placeIn "list" (s.heap.items l).size (.int n) s = .error (.fault f) s) : False :=
        indexFault_error ((bind_ok (toInt_ok hn)).trans
          ((bind_ok rfl).trans (bind_error hat))) hread
      dsimp only
      by_cases hsmall : (n < indexLimit && -indexLimit ≤ n) = true
      · rw [if_pos hsmall]
        cases hplace : place? (s.heap.items l).size n with
        | some i => exact ⟨.item l i, rfl⟩
        | none =>
          have hindex : ofExcept (smallIndex .index n) s = .ok n s := by
            rw [smallIndex, if_pos hsmall]
            rfl
          refine (outside (f := .other .index "list index out of range") ?_).elim
          refine (bind_ok hindex).trans ?_
          simp only [hplace]
          rfl
      · have hindex : ofExcept (smallIndex .index n) s =
            .error (.fault (.other .index "cannot fit 'int' into an index-sized integer")) s := by
          rw [smallIndex, if_neg hsmall]
          rfl
        exact (outside (bind_error hindex)).elim
  · simp [hkey, hhas]

theorem Slot.change_item (v : Value) (l : Loc) (i : Nat) :
    Slot.change v (.item l i) = .mapItems (·.setIfInBounds i v) := by
  funext c
  cases c <;> rfl

theorem Slot.change_entry (v : Value) (l : Loc) (key : Value) : Slot.change v (.entry l key) = fun
    | .object es => .object (es.put key v)
    | c => c := by
  funext c
  cases c <;> rfl

theorem Heap.hasParameters_of_array {h : Heap} {l : Loc} {xs : Array Value}
    (hl : h.cells[l]? = some (.array xs)) : h.hasParameters l = false := by
  rw [Heap.hasParameters, hl]

theorem modifyItems_eq {l : Loc} (h : s.heap.hasParameters l = false)
    (f : Array Value → Array Value) : modifyItems l f s = modifyCell l (.mapItems f) s := by
  refine (bind_ok rfl).trans ?_
  rw [if_neg (by rw [h]; exact Bool.false_ne_true)]

theorem assignIndex_slot (h : s.slot? c k = some slot) (hc : s.heap.Assignable c) (v : Value) :
    assignIndex c k v s = .ok () { s with heap := slot.write s.heap v } := by
  rcases Setting.slot?_cases h with
    ⟨l, n, i, rfl, rfl, hn, hsmall, hplace⟩ | ⟨l, key, rfl, rfl, hkey, hhas⟩
  · have hindex : ofExcept (smallIndex .index n) s = .ok n s := by
      rw [hsmall]
      rfl
    refine indexFault_ok ((bind_ok (toInt_ok hn)).trans ((bind_ok rfl).trans ?_))
    refine (bind_ok hindex).trans ?_
    rw [Slot.write, Slot.change_item]
    simp only [hplace]
    exact modifyItems_eq (hc l rfl) _
  · refine (bind_ok (text_ok hkey)).trans ?_
    rw [Slot.write, Slot.change_entry]
    rfl

/-! ## What a write changes -/

theorem Heap.items_eq {h : Heap} {l : Loc} {xs : Array Value}
    (hl : h.cells[l]? = some (.array xs)) : h.items l = xs := by
  rw [Heap.items, hl]

theorem Heap.entries_eq {h : Heap} {l : Loc} {es : Entries} (hl : h.cells[l]? = some (.object es)) :
    h.entries l = es := by
  rw [Heap.entries, hl]

namespace Slot

/-- A slot that is there: its container is of its kind and has it. -/
inductive In (h : Heap) : Slot → Prop where
  | item {l : Loc} {i : Nat} {xs : Array Value} (hl : h.cells[l]? = some (.array xs))
      (hi : i < xs.size) : In h (.item l i)
  | entry {l : Loc} {key : String} {es : Entries} (hl : h.cells[l]? = some (.object es))
      (hkey : es.has (.text key) = true) : In h (.entry l (.text key))

theorem in_of_slot? {slot : Slot} (h : s.slot? c k = some slot) (hc : s.heap.Assignable c) :
    slot.In s.heap := by
  rcases Setting.slot?_cases h with ⟨l, n, i, rfl, rfl, -, -, hplace⟩ | ⟨l, key, rfl, rfl, -, hhas⟩
  · have hi := lt_of_place? hplace
    cases hcell : s.heap.cells[l]? with
    | none => simp [Heap.items, hcell] at hi
    | some c =>
      cases c with
      | array xs => exact .item hcell (by rwa [Heap.items_eq hcell] at hi)
      | parameters => simpa [Heap.hasParameters, hcell] using hc l rfl
      | _ => simp [Heap.items, hcell] at hi
  · cases hcell : s.heap.cells[l]? with
    | none => simp [Heap.entries, hcell, Entries.has] at hhas
    | some c =>
      cases c with
      | object es => exact .entry hcell (by rwa [Heap.entries_eq hcell] at hhas)
      | _ => simp [Heap.entries, hcell, Entries.has] at hhas

variable {h : Heap} {slot : Slot}

theorem cells_write (v : Value) (l : Loc) : (slot.write h v).cells[l]? =
    if slot.loc = l then h.cells[l]?.map (slot.change v) else h.cells[l]? := by
  rw [write, Array.getElem?_modify]

theorem In.items_write (hin : slot.In h) (v : Value) (l : Loc) : (slot.write h v).items l =
    match slot with
    | .item k i => if k = l then (h.items l).setIfInBounds i v else h.items l
    | .entry .. => h.items l := by
  cases hin with
  | @item k i xs hk hi =>
    by_cases hl : k = l
    · subst hl
      simp [Heap.items, cells_write, loc, change, hk]
    · simp [Heap.items, cells_write, loc, hl]
  | @entry k key es hk hkey =>
    by_cases hl : k = l
    · subst hl
      simp [Heap.items, cells_write, loc, change, hk]
    · simp [Heap.items, cells_write, loc, hl]

theorem In.entries_write (hin : slot.In h) (v : Value) (l : Loc) : (slot.write h v).entries l =
    match slot with
    | .item .. => h.entries l
    | .entry k key => if k = l then (h.entries l).put key v else h.entries l := by
  cases hin with
  | @item k i xs hk hi =>
    by_cases hl : k = l
    · subst hl
      simp [Heap.entries, cells_write, loc, change, hk]
    · simp [Heap.entries, cells_write, loc, hl]
  | @entry k key es hk hkey =>
    by_cases hl : k = l
    · subst hl
      simp [Heap.entries, cells_write, loc, change, hk]
    · simp [Heap.entries, cells_write, loc, hl]

theorem In.read_write (hin : slot.In h) (v : Value) : slot.read (slot.write h v) = some v := by
  cases hin with
  | item hl hi =>
    rw [read, In.items_write (.item hl hi), Heap.items_eq hl]
    simp [hi]
  | entry hl hkey =>
    rw [read, In.entries_write (.entry hl hkey)]
    simp [Entries.get?_put_self (Value.text_sameKey.2 rfl)]

theorem In.read_write_of_ne (hin : slot.In h) {other : Slot} (hne : other ≠ slot) (v : Value) :
    other.read (slot.write h v) = other.read h := by
  cases other with
  | item k j =>
    rw [read, read, hin.items_write]
    cases slot with
    | entry => rfl
    | item l i =>
      by_cases hl : l = k
      · have hij : i ≠ j := by
          rintro rfl
          exact hne (by rw [hl])
        simp [hl, hij]
      · simp [hl]
  | entry k key =>
    rw [read, read, hin.entries_write]
    cases hin with
    | item => rfl
    | @entry l written =>
      by_cases hl : l = k
      · have hkey : key ≠ .text written := by
          rintro rfl
          exact hne (by rw [hl])
        simp [hl, Entries.get?_put_of_ne hkey]
      · simp [hl]

/-- Arrays keep their lengths, and objects their keys in their order. -/
theorem In.shape_write (hin : slot.In h) (v : Value) (l : Loc) :
    ((slot.write h v).items l).size = (h.items l).size ∧
      ((slot.write h v).entries l).map (·.1) = (h.entries l).map (·.1) := by
  rw [hin.items_write, hin.entries_write]
  cases hin with
  | @item k i =>
    by_cases hl : k = l <;> simp [hl]
  | @entry k key es hk hkey =>
    refine ⟨rfl, ?_⟩
    by_cases hl : k = l
    · cases hl
      simp [Heap.entries_eq hk, Entries.keys_put hkey]
    · simp [hl]

end Slot

/-! ## Indexes that do not depend on what is written -/

/-- The values whose text and number do not depend on the heap. -/
def Value.isScalar : Value → Bool
  | .null | .bool _ | .int _ | .float _ | .nan _ | .text _ => true
  | _ => false

theorem Setting.text_of_isScalar (hk : k.isScalar = true) (s : Setting) (h : Heap) :
    { s with heap := h }.text k = s.text k := by
  have hdepth : valueDepth = 899 + 1 := rfl
  cases k with
  | null => simp only [Setting.text, hdepth, Setting.quote]
  | bool => simp only [Setting.text, hdepth, Setting.quote]
  | int => simp only [Setting.text, hdepth, Setting.quote]
  | float => simp only [Setting.text, hdepth, Setting.quote]
  | nan => simp only [Setting.text, hdepth, Setting.quote]
  | text => simp only [Setting.text]
  | _ => contradiction

variable {slot : Slot} {d : Nat} {scope : ScopeId} {x : String} {w : World}

theorem Setting.slot?_write {index : Value} (hin : slot.In s.heap) (hindex : index.isScalar = true)
    (v : Value) : { s with heap := slot.write s.heap v }.slot? c index = s.slot? c index := by
  unfold Setting.slot?
  split
  · next l => simp only [(hin.shape_write v l).1]
  · next l =>
    rw [Setting.text_of_isScalar hindex]
    simp only [Entries.has_eq_of_keys (hin.shape_write v l).2]
  · rfl

/-! ## Expressions -/

/-- The world with another heap. -/
def World.withHeap (w : World) (heap : Heap) : World :=
  { w with heap }

/-- Pushing to an array adds the item to it, and changes nothing else. -/
theorem push_ok {l : Loc} {xs : Array Value} (hl : w.heap.cells[l]? = some (.array xs))
    (v : Value) :
    (discard (liftM (Library.push (.array l) v)) : Action Unit) w =
      .ok () (w.withHeap { cells := w.heap.cells.modify l (.mapItems (·.push v)) }) :=
  have hpush : (liftM (Library.push (.array l) v) : Action Value) w = _ := Routine.perform_ok
    (bind_ok (modifyItems_eq (Heap.hasParameters_of_array hl) _))
  (bind_ok hpush).trans rfl

/-- Reading a variable at an index gives what is in the slot that the index means. -/
theorem evaluate_index_slot {i : Expr} (hx : w.code.lookup scope x = some c)
    (hi : evaluate (d + 1) scope i w = .ok k w) (hslot : w.slot? c k = some slot) :
    ∃ v, slot.read w.heap = some v ∧ evaluate (d + 2) scope (.index (.name x) i) w = .ok v w := by
  obtain ⟨v, hv, hread⟩ := indexValue_slot hslot
  refine ⟨v, hv, ?_⟩
  rw [evaluate]
  exact (bind_ok (evaluate_name hx)).trans ((bind_ok hi).trans (Routine.perform_ok hread))

/-- Assigning a variable at an index writes the slot that the index means. -/
theorem evaluate_assignIndex_slot {i e : Expr} {w₁ : World} {v : Value}
    (hx : w.code.lookup scope x = some c) (hi : evaluate (d + 1) scope i w = .ok k w)
    (he : evaluate (d + 1) scope e w = .ok v w₁) (hslot : w₁.slot? c k = some slot)
    (hc : w₁.heap.Assignable c) :
    evaluate (d + 2) scope (.assignIndex (.name x) i e) w =
      .ok v (w₁.withHeap (slot.write w₁.heap v)) := by
  rw [evaluate]
  refine (bind_ok (lookup_ok hx)).trans ((bind_ok hi).trans ((bind_ok he).trans ?_))
  exact bind_ok (Routine.perform_ok (assignIndex_slot hslot hc v))

/-- An index of anything but a variable is refused before anything is evaluated. -/
theorem evaluate_assignIndex_refused {a : Expr} (ha : ∀ x, a ≠ .name x) (d : Nat) (scope : ScopeId)
    (i e : Expr) (w : World) :
    evaluate (d + 1) scope (.assignIndex a i e) w = .error (.fault .badIndexTarget) w := by
  rw [evaluate]
  · rfl
  · exact ha

/-- What is assigned at an index of a variable is read back there, and every other target is refused
before anything is evaluated. Let `x` hold the container `c`, before and after the value is
computed, let the index be `k`, and let `w₁` be the world in which the value is ready, where `c` has
an item or an entry at `k`. Then the assignment succeeds and writes that slot and nothing else:
every other slot and every other cell is as it was, every array has its length, every object its
keys in their order, and all but the heap is as it was. And as long as the index still means the
slot, which a scalar does, reading `x` at the index gives the value. -/
theorem assigned_index_reads_back {d : Nat} {scope : ScopeId} {x : String} {i e : Expr}
    {w w₁ : World} {c k v : Value} (hx : w.code.lookup scope x = some c)
    (hi : evaluate (d + 1) scope i w = .ok k w) (he : evaluate (d + 1) scope e w = .ok v w₁)
    (hx₁ : w₁.code.lookup scope x = some c) (hfinds : w₁.Finds c k) :
    (∀ (a i e : Expr) (d : Nat) (scope : ScopeId) (w : World), (∀ x, a ≠ .name x) →
      evaluate (d + 1) scope (.assignIndex a i e) w = .error (.fault .badIndexTarget) w) ∧
    ∃ slot heap, w₁.slot? c k = some slot ∧
      evaluate (d + 2) scope (.assignIndex (.name x) i e) w = .ok v (w₁.withHeap heap) ∧
      slot.read heap = some v ∧
      (∀ other, other ≠ slot → other.read heap = other.read w₁.heap) ∧
      (∀ l, l ≠ slot.loc → heap.cells[l]? = w₁.heap.cells[l]?) ∧
      (∀ l, (heap.items l).size = (w₁.heap.items l).size ∧
        (heap.entries l).map (·.1) = (w₁.heap.entries l).map (·.1)) ∧
      ∀ k', evaluate (d + 1) scope i (w₁.withHeap heap) = .ok k' (w₁.withHeap heap) →
        (w₁.withHeap heap).slot? c k' = some slot ∨ (k' = k ∧ k.isScalar = true) →
        evaluate (d + 2) scope (.index (.name x) i) (w₁.withHeap heap) =
          .ok v (w₁.withHeap heap) := by
  obtain ⟨slot, hslot⟩ := hfinds.slot?
  have hin := Slot.in_of_slot? hslot hfinds.assignable
  refine ⟨fun a i e d scope w ha => evaluate_assignIndex_refused ha d scope i e w,
    slot, slot.write w₁.heap v, hslot,
    evaluate_assignIndex_slot hx hi he hslot hfinds.assignable, hin.read_write v,
    fun _ hne => hin.read_write_of_ne hne v, fun l hl => ?_, hin.shape_write v,
    fun k' hk' hsame => ?_⟩
  · rw [Slot.cells_write, if_neg (Ne.symm hl)]
  · have hslot' : (w₁.withHeap (slot.write w₁.heap v)).slot? c k' = some slot := by
      rcases hsame with hsame | ⟨rfl, hscalar⟩
      · exact hsame
      · exact (Setting.slot?_write hin hscalar v).trans hslot
    obtain ⟨u, hu, hread⟩ :=
      evaluate_index_slot (w := w₁.withHeap (slot.write w₁.heap v)) hx₁ hk' hslot'
    have huv : some u = some v := hu.symm.trans (hin.read_write v)
    rw [hread, Option.some.inj huv]

/-- A world with the arrays `m`, which is `[[1, 2], [3]]`, and `a`, which is `[0]`. -/
def someArrays : World where
  heap := { cells := #[.array #[.array 1, .array 2], .array #[.int 1, .int 2], .array #[.int 3],
    .array #[.int 0]] }
  code := { scopes := #[{
    vars := (({} : Std.HashMap String Value).insert "m" (.array 0)).insert "a" (.array 3) }] }

theorem someArrays_lookup (heap : Heap) :
    (someArrays.withHeap heap).code.lookup globalScope "m" = some (.array 0) ∧
    (someArrays.withHeap heap).code.lookup globalScope "a" = some (.array 3) := by
  constructor <;>
  simp [World.withHeap, Code.lookup, Code.lookupFrom, someArrays, globalScope,
    Std.HashMap.getElem_insert]

/-- An item counted from the end is assigned and read back. -/
theorem someArrays_last_assigned :
    let last : Expr := .unary .neg (.literal (.whole 1))
    someArrays.Finds (.array 0) (.int (-1)) ∧ ∃ w,
      evaluate 9 globalScope (.assignIndex (.name "m") last (.literal (.whole 5))) someArrays =
        .ok (.int 5) w ∧
      evaluate 9 globalScope (.index (.name "m") last) w = .ok (.int 5) w ∧
      (w.heap.items 0)[0]? = some (.array 1) := by
  intro last
  have hlast (w : World) : evaluate 8 globalScope last w = .ok (.int (-1)) w := by
    rw [evaluate]
    exact (bind_ok (evaluate_literal _ _ _ w)).trans rfl
  have hfinds : someArrays.Finds (.array 0) (.int (-1)) := .inl ⟨0, .array 2, rfl, rfl, rfl⟩
  have hm := (someArrays_lookup someArrays.heap).1
  obtain ⟨-, slot, heap, hslot, hassign, -, hother, -, -, hread⟩ :=
    assigned_index_reads_back hm (hlast someArrays) (evaluate_literal 7 _ (.whole 5) _) hm hfinds
  have hitem : slot = .item 0 1 := (Option.some.inj hslot).symm
  refine ⟨hfinds, _, hassign, hread _ (hlast _) (.inr ⟨rfl, rfl⟩), ?_⟩
  exact hother (.item 0 0) (by rw [hitem]; exact nofun)

/-- An item of an item is there and cannot be assigned. An index that reads the item it means can
mean another one once that is assigned. -/
theorem someArrays_not_read_back :
    let zero : Expr := .literal (.whole 0)
    let five : Expr := .literal (.whole 5)
    (evaluate 9 globalScope (.index (.index (.name "m") zero) zero) someArrays =
        .ok (.int 1) someArrays ∧
      evaluate 9 globalScope (.assignIndex (.index (.name "m") zero) zero five) someArrays =
        .error (.fault .badIndexTarget) someArrays) ∧
    evaluate 9 globalScope (.index (.name "a") (.index (.name "a") zero)) someArrays =
        .ok (.int 0) someArrays ∧
    ∃ w, evaluate 9 globalScope (.assignIndex (.name "a") (.index (.name "a") zero) five)
        someArrays = .ok (.int 5) w ∧
      ∀ w', evaluate 9 globalScope (.index (.name "a") (.index (.name "a") zero)) w ≠
        .ok (.int 5) w' := by
  intro zero five
  have hm := (someArrays_lookup someArrays.heap).1
  have ha (heap : Heap) := (someArrays_lookup heap).2
  have hzero (d : Nat) (w : World) : evaluate (d + 1) globalScope zero w = .ok (.int 0) w :=
    evaluate_literal d globalScope (.whole 0) w
  have hfirst : evaluate 8 globalScope (.index (.name "m") zero) someArrays =
      .ok (.array 1) someArrays := by
    rw [evaluate]
    exact (bind_ok (evaluate_name hm)).trans ((bind_ok (hzero _ _)).trans (Routine.perform_ok rfl))
  have hinner (heap : Heap) (v : Value)
      (h : indexValue (.array 3) (.int 0) (someArrays.withHeap heap).toSetting =
        .ok v (someArrays.withHeap heap).toSetting) :
      evaluate 8 globalScope (.index (.name "a") zero) (someArrays.withHeap heap) =
        .ok v (someArrays.withHeap heap) := by
    rw [evaluate]
    exact (bind_ok (evaluate_name (ha heap))).trans ((bind_ok (hzero _ _)).trans
      (Routine.perform_ok h))
  refine ⟨⟨?_, evaluate_assignIndex_refused (fun _ h => by cases h) _ _ _ _ _⟩, ?_, ?_⟩
  · rw [evaluate]
    exact (bind_ok hfirst).trans ((bind_ok (hzero _ _)).trans (Routine.perform_ok rfl))
  · rw [evaluate]
    exact (bind_ok (evaluate_name (ha _))).trans
      ((bind_ok (hinner someArrays.heap (.int 0) rfl)).trans (Routine.perform_ok rfl))
  · have hslot : someArrays.slot? (.array 3) (.int 0) = some (.item 3 0) := rfl
    have hassign := evaluate_assignIndex_slot (ha someArrays.heap)
      (hinner someArrays.heap (.int 0) rfl)
      (evaluate_literal 7 globalScope (.whole 5) someArrays) hslot (fun _ h => by cases h; rfl)
    refine ⟨_, hassign, fun w' hread => ?_⟩
    -- the index now reads 5, which is no place of an array of one item
    rw [evaluate] at hread
    rw [bind_ok (evaluate_name (ha _)), bind_ok (hinner _ (.int 5) rfl)] at hread
    contradiction

end ScriptLang
