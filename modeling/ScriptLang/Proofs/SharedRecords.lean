import ScriptLang.Proofs.MatchingRecords
import ScriptLang.Proofs.TouchedCells

/-!
# Records that the program shares with a table

A table keeps the very objects that are inserted, so what the program does to such an object is done
to the record. What is selected with conditions or with a limit, on the other hand, is a new array,
which is no table's.
-/

namespace ScriptLang

open ScriptLang.Action

theorem Heap.cell_of_get? {h : Heap} {l : Loc} {k v : Value}
    (hget : (h.entries l).get? k = some v) :
    ∃ es, h.cells[l]? = some (.object es) ∧ es.get? k = some v := by
  rw [Heap.entries] at hget
  split at hget
  · next es hes => exact ⟨es, hes, hget⟩
  · cases hget

theorem Heap.Evolves.object {h h' : Heap} (hrel : h.Evolves Cell.shell none h') {l : Loc}
    {es : Entries} (hl : h.cells[l]? = some (.object es)) :
    ∃ es', h'.cells[l]? = some (.object es') := by
  obtain ⟨hlt, -⟩ := Array.getElem?_eq_some_iff.1 hl
  have hsame := hrel.same l hlt nofun
  rw [hl, Option.map_some] at hsame
  obtain ⟨c, hc, hshell⟩ := Option.map_eq_some_iff.1 hsame
  cases c with
  | object es' => exact ⟨es', hc⟩
  | _ => cases hshell

/-! ## Routines that answer the same -/

/-- An answer given in a setting that stays as it is. -/
def Setting.answer {α : Type} (s : Setting) : Except Halt α → EStateM.Result Halt Setting α
  | .ok a => .ok a s
  | .error e => .error e s

/-- In both settings a routine gives the same answer and leaves the setting as it is. -/
def SameAnswer {α : Type} (s s' : Setting) (x : Routine α) : Prop :=
  ∃ r : Except Halt α, x s = s.answer r ∧ x s' = s'.answer r

namespace SameAnswer

variable {α β : Type} {s s' : Setting} {x : Routine α}

theorem done (a : α) : SameAnswer s s' (pure a) :=
  ⟨.ok a, rfl, rfl⟩

theorem ofExcept (r : Except Fault α) : SameAnswer s s' (Action.ofExcept r) := by
  cases r with
  | ok a => exact ⟨.ok a, rfl, rfl⟩
  | error f => exact ⟨.error (.fault f), rfl, rfl⟩

theorem bind {f : α → Routine β} (hx : SameAnswer s s' x) (hf : ∀ a, SameAnswer s s' (f a)) :
    SameAnswer s s' (x >>= f) := by
  obtain ⟨r, hr, hr'⟩ := hx
  cases r with
  | error e => exact ⟨.error e, bind_error hr, bind_error hr'⟩
  | ok a =>
    obtain ⟨q, hq, hq'⟩ := hf a
    exact ⟨q, (bind_ok hr).trans hq, (bind_ok hr').trans hq'⟩

theorem filterM {xs : List α} {f : α → Routine Bool} (hf : ∀ a ∈ xs, SameAnswer s s' (f a)) :
    SameAnswer s s' (xs.filterM f) := by
  have loop (rest acc : List α) (hrest : ∀ a ∈ rest, SameAnswer s s' (f a)) :
      SameAnswer s s' (rest.filterAuxM f acc) := by
    induction rest generalizing acc with
    | nil => exact done acc
    | cons a rest ih =>
      rw [List.forall_mem_cons] at hrest
      exact hrest.1.bind fun _ => ih _ hrest.2
  exact (loop xs [] hf).bind fun _ => done _

theorem eq_ok_iff (hx : SameAnswer s s' x) {a : α} : x s = .ok a s ↔ x s' = .ok a s' := by
  obtain ⟨r, hr, hr'⟩ := hx
  rw [hr, hr']
  cases r with
  | ok b => simp [Setting.answer]
  | error e => simp [Setting.answer]

end SameAnswer

/-- All containers inside a value are in the heap. -/
def Heap.HasAll (h : Heap) (v : Value) : Prop :=
  ∀ k, h.Inside v k → ∃ c, h.cells[k]? = some c

theorem Heap.hasAll_null (h : Heap) : h.HasAll .null :=
  nofun

section

variable {h h' : Heap} {l : Loc} {v : Value}
  (hcells : ∀ (k : Loc) (c : Cell), h.cells[k]? = some c → h'.cells[k]? = some c)

include hcells

/-- What is inside a value stays the same for as long as the containers that were there do. -/
theorem Heap.HasAll.same (hv : h.HasAll v) {k : Loc} (hk : h.Inside v k) :
    h'.cells[k]? = h.cells[k]? := by
  obtain ⟨c, hc⟩ := hv k hk
  rw [hc, hcells k c hc]

/-- Nothing else comes to lie inside a value for as long as the containers that were there stay. -/
theorem Heap.HasAll.inside (hv : h.HasAll v) {k : Loc} (hk : h'.Inside v k) : h.Inside v k := by
  induction hk with
  | array l => exact .array l
  | object l => exact .object l
  | item hx _ ih =>
    rw [Heap.items_congr (hv.same hcells (.array _))] at hx
    exact .item hx (ih fun j hj => hv j (.item hx hj))
  | part hx _ ih => exact .part hx (ih fun j hj => hv j (.part hx hj))
  | entry he _ ih =>
    rw [Heap.entries_congr (hv.same hcells (.object _))] at he
    exact .entry he (ih fun j hj => hv j (.entry he hj))

theorem Heap.HasAll.mono (hv : h.HasAll v) : h'.HasAll v := by
  intro k hk
  obtain ⟨c, hc⟩ := hv k (hv.inside hcells hk)
  exact ⟨c, hcells k c hc⟩

theorem Heap.HasAll.truthy_eq (hv : h.HasAll v) : h'.truthy v = h.truthy v := by
  cases v with
  | array l => rw [Heap.truthy, Heap.truthy, Heap.items_congr (hv.same hcells (.array l))]
  | object l => rw [Heap.truthy, Heap.truthy, Heap.entries_congr (hv.same hcells (.object l))]
  | _ => rfl

theorem Heap.HasAll.matchFields_eq {record conditions : Loc} (hrecord : h.HasAll (.object record))
    (hconditions : h.HasAll (.object conditions)) :
    h'.matchFields record (h'.entries conditions) = h.matchFields record
      (h.entries conditions) := by
  rw [Heap.entries_congr (hconditions.same hcells (.object conditions))]
  refine Heap.matchFields_congr (hrecord.same hcells (.object record)) fun k hk => ?_
  obtain ⟨e, he, v, hv, hinside⟩ := hk
  rcases hinside with hinside | hinside
  · obtain ⟨f, hf, -, rfl⟩ := Entries.mem_of_get? hv
    exact hrecord.same hcells (.entry hf hinside)
  · exact hconditions.same hcells (.entry he hinside)

end

namespace Package

/-! ## Where a table stands -/

/-- The object of all tables of a database is another one. -/
def Apart (s : Setting) (id : Nat) (l : Loc) : Prop :=
  ∀ d, s.databases.databases[id]? = some d → d.tables ≠ .object l

section

variable {s s' s₁ : Setting} {id : Nat} {name : Value} {table data : Loc} {rows : List Loc}

/-- A table stands where it stood for as long as the containers that were there stay as they are. -/
theorem TableAt.mono (h : TableAt s id name table data rows)
    (hdatabases : s'.databases = s.databases)
    (hcells : ∀ (k : Loc) (c : Cell), s.heap.cells[k]? = some c → s'.heap.cells[k]? = some c) :
    TableAt s' id name table data rows where
  key := h.key
  database := by
    obtain ⟨d, tables, hd, htables, hget⟩ := h.database
    obtain ⟨es, hes, hget⟩ := Heap.cell_of_get? hget
    refine ⟨d, tables, by rw [hdatabases, hd], htables, ?_⟩
    rw [Heap.entries_eq (hcells _ _ hes), hget]
  array := by
    obtain ⟨es, hes, hget⟩ := Heap.cell_of_get? h.array
    rw [Heap.entries_eq (hcells _ _ hes)]
    exact hget
  cell := hcells _ _ h.cell
  objects r hr := by
    obtain ⟨es, hes⟩ := h.objects r hr
    exact ⟨es, hcells _ _ hes⟩

variable {l : Loc} {xs : Array Value}

/-- A table stands where it stood when only one object changes that is not that of all tables,
except that the table itself has to keep its array. -/
theorem TableAt.withObject (h : TableAt s id name table data rows) {es es' : Entries}
    (hdatabases : s'.databases = s.databases) (hl : s.heap.cells[l]? = some (.object es))
    (hl' : s'.heap.cells[l]? = some (.object es'))
    (hcells : ∀ (k : Loc) (c : Cell), k ≠ l → s.heap.cells[k]? = some c →
      s'.heap.cells[k]? = some c) (hapart : Apart s id l) (htable :
      l = table → es'.field? "data" = es.field? "data") : TableAt s' id name table data rows where
  key := h.key
  database := by
    obtain ⟨d, tables, hd, htables, hget⟩ := h.database
    have hne : tables ≠ l := by
      rintro rfl
      exact hapart d hd htables
    obtain ⟨fs, hfs, hget⟩ := Heap.cell_of_get? hget
    refine ⟨d, tables, by rw [hdatabases, hd], htables, ?_⟩
    rw [Heap.entries_eq (hcells _ _ hne hfs), hget]
  array := by
    obtain ⟨fs, hfs, hget⟩ := Heap.cell_of_get? h.array
    by_cases heq : table = l
    · subst heq
      cases hl.symm.trans hfs
      rw [Heap.entries_eq hl', htable rfl]
      exact hget
    · rw [Heap.entries_eq (hcells _ _ heq hfs)]
      exact hget
  cell := by
    have hne : data ≠ l := by
      rintro rfl
      cases h.cell.symm.trans hl
    exact hcells _ _ hne h.cell
  objects r hr := by
    by_cases heq : r = l
    · subst heq
      exact ⟨es', hl'⟩
    · obtain ⟨fs, hfs⟩ := h.objects r hr
      exact ⟨fs, hcells _ _ heq hfs⟩

theorem TableAt.setEntries (h : TableAt s id name table data rows) {es : Entries} (es' : Entries)
    (hl : s.heap.cells[l]? = some (.object es)) (hapart : Apart s id l)
    (htable : l = table → es'.field? "data" = es.field? "data") :
    TableAt (s.setCell l (.object es')) id name table data rows :=
  h.withObject rfl hl (Setting.setCell_self hl)
    (fun _ _ hk hc => (Setting.setCell_of_ne hk).trans hc) hapart htable

theorem TableAt.push (h : TableAt s id name table data rows) {r : Loc} {es : Entries}
    (hr : s.heap.cells[r]? = some (.object es)) :
    TableAt (s.setCell data (.array ((rows ++ [r]).map Value.object).toArray)) id name table data
      (rows ++ [r]) := by
  refine h.setData fun k hk => ?_
  rcases List.mem_append.1 hk with hk | hk
  · exact h.objects k hk
  · rw [List.mem_singleton.1 hk]
    exact ⟨es, hr⟩

/-! ## Inserting -/

variable {r : Loc} {es : Entries} {v : Value}

theorem numberRecord_known (hr : s.heap.cells[r]? = some (.object es))
    (hid : es.field? "id" = some v) (table : Value) :
    numberRecord table (.object r) s = .ok () s := by
  refine (bind_ok (contains_object rfl)).trans ?_
  rw [Heap.entries_eq hr, if_pos (Entries.has_of_get? hid)]
  rfl

/-- A record that has been given a number has one, and the table stands where it stood. -/
theorem TableAt.numbered (h : TableAt s id name table data rows) (htables : Apart s id table)
    (hr : s.heap.cells[r]? = some (.object es)) (hne : r ≠ table) (hapart : Apart s id r)
    (hrun : numberRecord (.object table) (.object r) s = .ok () s₁) :
    TableAt s₁ id name table data rows ∧ s₁.databases = s.databases ∧
      ∃ es' v, s₁.heap.cells[r]? = some (.object es') ∧ es'.field? "id" = some v := by
  obtain ⟨known, hknown, hrun⟩ := (contains_still _ _).bind_eq_ok hrun
  rw [contains_object rfl, Heap.entries_eq hr] at hknown
  cases hhas : es.has (.text "id") with
  | true =>
    obtain ⟨v, hv⟩ := Entries.exists_get?_of_has hhas
    cases hknown.symm.trans (congrArg (EStateM.Result.ok · s) hhas)
    cases hrun
    exact ⟨h, rfl, es, v, hr, hv⟩
  | false =>
    cases hknown.symm.trans (congrArg (EStateM.Result.ok · s) hhas)
    -- the record gets the number first, and then the table the next one
    obtain ⟨n, -, hrun⟩ := (getItem_still _ _).bind_eq_ok hrun
    obtain ⟨⟨⟩, s₂, hset, hrun⟩ := bind_eq_ok hrun
    cases (setItem_object rfl hr).symm.trans hset
    obtain ⟨m, -, hrun⟩ := (getItem_still _ _).bind_eq_ok hrun
    obtain ⟨next, s₃, hplus, hrun⟩ := bind_eq_ok hrun
    have hgrows := Setting.touches_none.1 ((plus_touches m (.int 1)).of_ok hplus)
    have hdatabases : s₃.databases = s.databases := by
      rw [hgrows.rest]
      rfl
    have htable := (h.setEntries _ hr hapart fun heq => absurd heq hne).mono hdatabases hgrows.cells
    obtain ⟨ts, hts, -⟩ := Heap.cell_of_get? htable.array
    cases (setItem_object rfl hts).symm.trans hrun
    refine ⟨htable.setEntries _ hts (fun d hd => htables d (hdatabases ▸ hd)) fun _ => ?_,
      hdatabases, ?_⟩
    · exact Entries.get?_put_of_ne (by simp) ts next
    · refine ⟨_, n, ?_, Entries.get?_put_self (by decide) es n⟩
      rw [Setting.setCell_of_ne hne]
      exact hgrows.cells _ _ (Setting.setCell_self hr)

/-- A record that has a number gets the time and is put behind the others, and the number is
given. -/
theorem storeRecord_ok {ts : Entries} (ht : s.heap.cells[table]? = some (.object ts))
    (hdata : ts.field? "data" = some (.array data)) (hcell : s.heap.cells[data]? = some (.array xs))
    (hr : s.heap.cells[r]? = some (.object es)) (hid : es.field? "id" = some v) (hne : r ≠ table) :
    storeRecord (.object table) (.object r) s =
      .ok v ((s.setCell r (.object (es.put (.text "_created_at") (.float s.clock)))).setCell data
        (.array (xs.push (.object r)))) := by
  have hrow : r ≠ data := by
    rintro rfl
    cases hcell.symm.trans hr
  have hstamped :=
    Setting.setCell_self (c := .object (es.put (.text "_created_at") (.float s.clock))) hr
  refine (bind_ok rfl).trans ((bind_ok (setItem_object rfl hr)).trans ?_)
  refine (bind_ok (getItem_object rfl (v := .array data) ?_)).trans ?_
  · rw [Heap.entries_eq ((Setting.setCell_of_ne hne.symm).trans ht)]
    exact hdata
  refine (bind_ok (modifyItems_ok ((Setting.setCell_of_ne hrow.symm).trans hcell))).trans ?_
  refine getItem_object rfl ?_
  rw [Heap.entries_eq ((Setting.setCell_of_ne hrow).trans hstamped)]
  exact (Entries.get?_put_of_ne (by simp) es _).trans hid

/-- With a record that has a number the table gets one more record, and the number is given. -/
theorem TableAt.stored (h : TableAt s id name table data rows)
    (hr : s.heap.cells[r]? = some (.object es)) (hid : es.field? "id" = some v) (hne : r ≠ table)
    (hapart : Apart s id r) :
    ∃ s₁ es', storeRecord (.object table) (.object r) s = .ok v s₁ ∧
      TableAt s₁ id name table data (rows ++ [r]) ∧ s₁.databases = s.databases ∧
      s₁.heap.cells[r]? = some (.object es') ∧ es'.field? "id" = some v := by
  have hstamped := h.setEntries (es.put (.text "_created_at") (.float s.clock)) hr hapart
    fun heq => absurd heq hne
  have hcell :=
    Setting.setCell_self (c := .object (es.put (.text "_created_at") (.float s.clock))) hr
  have hrow : r ≠ data := by
    rintro rfl
    cases h.cell.symm.trans hr
  obtain ⟨ts, hts, hdata⟩ := Heap.cell_of_get? h.array
  have hrun := storeRecord_ok hts hdata h.cell hr hid hne
  have happend : ((rows.map Value.object).toArray.push (.object r)) =
      ((rows ++ [r]).map Value.object).toArray := by simp
  rw [happend] at hrun
  exact ⟨_, _, hrun, hstamped.push hcell, rfl, (Setting.setCell_of_ne hrow).trans hcell,
    (Entries.get?_put_of_ne (by simp) es _).trans hid⟩

/-- An object that is inserted becomes the last record of the table, and its number is given. -/
theorem TableAt.inserted (h : TableAt s id name table data rows) (htables : Apart s id table)
    (hr : s.heap.cells[r]? = some (.object es)) (hne : r ≠ table) (hapart : Apart s id r)
    (hrun : insertRecord id name (.object r) s = .ok v s₁) :
    TableAt s₁ id name table data (rows ++ [r]) ∧ s₁.databases = s.databases ∧
      ∃ es', s₁.heap.cells[r]? = some (.object es') ∧ es'.field? "id" = some v := by
  rw [insertRecord] at hrun
  have hrest := (bind_ok h.tableOf_ok).symm.trans hrun
  obtain ⟨⟨⟩, s₂, hnumber, hstore⟩ := bind_eq_ok hrest
  obtain ⟨htable, hdatabases, es₂, w, hr₂, hid⟩ := h.numbered htables hr hne hapart hnumber
  obtain ⟨s₃, es₃, hstored, hlast, hsame, hr₃, hid₃⟩ :=
    htable.stored hr₂ hid hne fun d hd => hapart d (hdatabases ▸ hd)
  cases hstored.symm.trans hstore
  exact ⟨hlast, hsame.trans hdatabases, es₃, hr₃, hid₃⟩

/-- An object that has a number can be inserted however often. -/
theorem TableAt.insert_again (h : TableAt s id name table data rows)
    (hr : s.heap.cells[r]? = some (.object es)) (hid : es.field? "id" = some v) (hne : r ≠ table)
    (hapart : Apart s id r) :
    ∃ s₁, insertRecord id name (.object r) s = .ok v s₁ ∧
      TableAt s₁ id name table data (rows ++ [r]) := by
  obtain ⟨s₁, es₁, hstored, hlast, -⟩ := h.stored hr hid hne hapart
  refine ⟨s₁, ?_, hlast⟩
  rw [insertRecord]
  refine (bind_ok h.tableOf_ok).trans ?_
  exact (bind_ok (numberRecord_known hr hid _)).trans hstored

/-- However the program changes an object in place that is a record, it stays that record. -/
theorem TableAt.changed {w : World} (h : TableAt w.toSetting id name table data rows)
    (hr : w.heap.cells[r]? = some (.object es)) (hne : r ≠ table)
    (hapart : Apart w.toSetting id r) (cs : List Change) :
    TableAt (Change.all (.object r) cs w).toSetting id name table data rows := by
  have htouches := (Change.all_touches (l := r) .object cs w).setting
  have hevolves := Change.all_evolves (.object r es hr) cs w
  obtain ⟨es', hr'⟩ := hevolves.object hr
  have hdatabases : (Change.all (.object r) cs w).databases = w.databases := by rw [htouches.rest]
  refine h.withObject hdatabases hr hr' (fun k c hk hc => ?_) hapart fun heq => absurd heq hne
  exact htouches.cells k c (by simpa using Ne.symm hk) hc

/-! ## Selecting -/

/-- The first items of an array up to a limit, or all where there is none. -/
def capped (h : Heap) (limit : Value) (xs : Array Value) : Except Fault (Array Value) :=
  if h.truthy limit then return sliceArray xs 0 ((← limit.sliceIndex).getD xs.size) else return xs

/-- The records among some that meet conditions, or all where there are none. -/
def metRecords (records : List Value) (conditions : Value) : Routine (List Value) := do
  if ← truthy conditions then records.filterM (meets conditions) else return records

/-- The records among some that meet conditions, up to a limit. -/
def pickRecords (records : List Value) (conditions limit : Value) : Routine (Array Value) := do
  let found ← metRecords records conditions
  ofExcept (capped (← heap) limit found.toArray)

theorem truthy_ok (v : Value) : truthy v s = .ok (s.heap.truthy v) s :=
  rfl

theorem heap_ok (s : Setting) : heap s = .ok s.heap s :=
  rfl

variable {conditions limit : Value}

theorem capped_same {h h' : Heap} (hlimit : h.HasAll limit)
    (hcells : ∀ (k : Loc) (c : Cell), h.cells[k]? = some c → h'.cells[k]? = some c)
    (xs : Array Value) : capped h' limit xs = capped h limit xs := by
  rw [capped, hlimit.truthy_eq hcells, capped]

theorem limited_cases (limit : Value) (hl : s.heap.items l = xs) :
    (∃ f, capped s.heap limit xs = .error f ∧ limited (.array l) limit s = .error (.fault f) s) ∨
    ∃ ys k s₁, capped s.heap limit xs = .ok ys ∧ limited (.array l) limit s = .ok (.array k) s₁ ∧
      s.Grows s₁ ∧ s₁.heap.items k = ys ∧
      k = if s.heap.truthy limit then s.heap.cells.size else l := by
  subst hl
  have hstart : limited (.array l) limit s = (if s.heap.truthy limit then do
      slice (.array l) none (← ofExcept limit.sliceIndex) else return .array l : Routine Value) s :=
    bind_ok (truthy_ok limit)
  rw [hstart, capped]
  cases s.heap.truthy limit with
  | false => exact .inr ⟨_, l, s, rfl, rfl, .refl s, rfl, rfl⟩
  | true =>
    cases limit.sliceIndex with
    | error f => exact .inl ⟨f, rfl, rfl⟩
    | ok n => exact .inr ⟨_, _, _, rfl, rfl, .push s _, Heap.items_eq (by simp), rfl⟩

theorem fieldsOf_fails {v : Value} (hv : ¬ ∃ l, v = .object l) :
    ∃ f, ∀ s, fieldsOf v s = .error (.fault f) s := by
  unfold fieldsOf
  split
  · next l => exact absurd ⟨l, rfl⟩ hv
  · unfold Library.noAttribute
    split <;> exact ⟨_, fun _ => rfl⟩

/-- Comparing a record with conditions gives the same answer where their fields compare the same. -/
theorem meets_same (hsame : ∀ c, conditions = .object c →
      s'.heap.matchFields r (s'.heap.entries c) = s.heap.matchFields r (s.heap.entries c)) :
    SameAnswer s s' (meets conditions (.object r)) := by
  by_cases hobject : ∃ c, conditions = .object c
  · obtain ⟨c, rfl⟩ := hobject
    obtain ⟨a, ha, ha'⟩ : SameAnswer s s' (ofExcept (s.heap.matchFields r (s.heap.entries c))) :=
      .ofExcept _
    refine ⟨a, fieldsMatch_eq.trans ha, ?_⟩
    refine fieldsMatch_eq.trans ?_
    rw [hsame c rfl, ha']
  · obtain ⟨f, hf⟩ := fieldsOf_fails hobject
    exact ⟨.error (.fault f), bind_error (hf s), bind_error (hf s')⟩

/-- Selecting finds the records that are picked. Its array is a new one where there are conditions
or a limit. -/
theorem TableAt.selected (h : TableAt s id name table data rows) (conditions : Value)
    (hlimit : s.heap.HasAll limit) :
    (∃ e s₁, pickRecords (rows.map Value.object) conditions limit s = .error e s ∧
      selectRecords id name conditions limit s = .error e s₁) ∨
    ∃ xs l s₁, pickRecords (rows.map Value.object) conditions limit s = .ok xs s ∧
      selectRecords id name conditions limit s = .ok (.array l) s₁ ∧ s.Grows s₁ ∧
      s₁.heap.items l = xs ∧
      (s.heap.truthy conditions = true ∨ s.heap.truthy limit = true → s.heap.cells.size ≤ l) := by
  have hmet : metRecords (rows.map Value.object) conditions s = (if s.heap.truthy conditions then
      (rows.map Value.object).filterM (meets conditions) else return rows.map Value.object) s :=
    bind_ok (truthy_ok conditions)
  rw [selectRecords, bind_ok h.recordsOf_ok, bind_ok (truthy_ok conditions)]
  cases hconditions : s.heap.truthy conditions with
  | false =>
    -- the array of the table, up to the limit
    rw [hconditions, if_neg Bool.false_ne_true] at hmet
    rw [pickRecords, bind_ok hmet, bind_ok (heap_ok s), if_neg Bool.false_ne_true]
    rcases limited_cases limit (Heap.items_eq h.cell) with
      ⟨f, hcapped, hrun⟩ | ⟨ys, k, s₁, hcapped, hrun, hgrows, hitems, hk⟩
    · rw [hcapped]
      exact .inl ⟨_, s, rfl, hrun⟩
    · rw [hcapped]
      refine .inr ⟨ys, k, s₁, rfl, hrun, hgrows, hitems, ?_⟩
      rintro (hnew | hnew)
      · cases hnew
      · rw [hk, if_pos hnew]
  | true =>
    -- a new array of the records that meet the conditions, up to the limit
    have hmeets (v : Value) (hv : v ∈ rows.map Value.object) :
        SameAnswer s s (meets conditions v) := by
      obtain ⟨r, -, rfl⟩ := List.mem_map.1 hv
      exact meets_same fun _ _ => rfl
    obtain ⟨a, ha, -⟩ := SameAnswer.filterM hmeets
    rw [hconditions, if_pos rfl, ha] at hmet
    rw [if_pos rfl, bind_ok h.iterate_ok]
    cases a with
    | error e => exact .inl ⟨e, s, bind_error hmet, bind_error ha⟩
    | ok f =>
      rw [pickRecords, bind_ok hmet, bind_ok (heap_ok s), bind_ok ha]
      have hgrows : s.Grows (s.withCell (.array f.toArray)) := .push s _
      have hsame := capped_same hlimit hgrows.cells f.toArray
      have hitems : (s.withCell (.array f.toArray)).heap.items s.heap.cells.size = f.toArray :=
        Heap.items_eq (by simp [Setting.withCell])
      rcases limited_cases limit hitems with
        ⟨e, hcapped, hrun⟩ | ⟨ys, k, s₁, hcapped, hrun, hgrows', hitems, hk⟩
      · rw [← hsame, hcapped]
        exact .inl ⟨_, _, rfl, (bind_ok rfl).trans hrun⟩
      · rw [← hsame, hcapped]
        refine .inr ⟨ys, k, s₁, rfl, (bind_ok rfl).trans hrun, hgrows.trans hgrows', hitems, ?_⟩
        intro _
        rw [hk]
        split
        · simp [Setting.withCell]
        · exact Nat.le_refl _

/-- Picking records gives the same answer where the containers that were there are the same. -/
theorem pickRecords_same (hobjects : ∀ r ∈ rows, s.heap.HasAll (.object r))
    (hconditions : s.heap.HasAll conditions) (hlimit : s.heap.HasAll limit)
    (hcells : ∀ (k : Loc) (c : Cell), s.heap.cells[k]? = some c → s'.heap.cells[k]? = some c) :
    SameAnswer s s' (pickRecords (rows.map Value.object) conditions limit) := by
  have htruthy : SameAnswer s s' (truthy conditions) :=
    ⟨.ok (s.heap.truthy conditions), rfl, by rw [truthy_ok, hconditions.truthy_eq hcells]; rfl⟩
  have hcapped (xs : Array Value) :
      SameAnswer s s' (do ofExcept (capped (← heap) limit xs) : Routine (Array Value)) := by
    have hsame := capped_same hlimit hcells xs
    obtain ⟨r, hr, hr'⟩ : SameAnswer s s' (ofExcept (capped s.heap limit xs)) := .ofExcept _
    refine ⟨r, hr, ?_⟩
    show ofExcept (capped s'.heap limit xs) s' = _
    rw [hsame, hr']
  have hmeets (v : Value) (hv : v ∈ rows.map Value.object) :
      SameAnswer s s' (meets conditions v) := by
    obtain ⟨r, hr, rfl⟩ := List.mem_map.1 hv
    refine meets_same fun c hc => ?_
    subst hc
    exact Heap.HasAll.matchFields_eq hcells (hobjects r hr) hconditions
  have hmet : SameAnswer s s' (metRecords (rows.map Value.object) conditions) := by
    refine htruthy.bind fun b => ?_
    cases b with
    | false => exact .done _
    | true => exact .filterM hmeets
  exact hmet.bind fun found => hcapped _

/-- Selecting reports these records. -/
def Selects (s : Setting) (id : Nat) (name conditions limit : Value) (xs : Array Value) : Prop :=
  ∃ l s', selectRecords id name conditions limit s = .ok (.array l) s' ∧ s'.heap.items l = xs

/-- Counting reports this number. -/
def Counts (s : Setting) (id : Nat) (name conditions : Value) (n : Nat) : Prop :=
  ∃ s', countRecords id name conditions s = .ok (.int n) s'

theorem TableAt.selects_iff (h : TableAt s id name table data rows) (hlimit : s.heap.HasAll limit) :
    Selects s id name conditions limit xs ↔
      pickRecords (rows.map Value.object) conditions limit s = .ok xs s := by
  rcases h.selected conditions hlimit with
    ⟨e, s₁, hpick, hrun⟩ | ⟨ys, l, s₁, hpick, hrun, -, hitems, -⟩
  · rw [hpick]
    constructor
    · rintro ⟨l, s₂, hselect, -⟩
      cases hrun.symm.trans hselect
    · rintro ⟨⟩
  · rw [hpick]
    constructor
    · rintro ⟨k, s₂, hselect, rfl⟩
      cases hrun.symm.trans hselect
      rw [hitems]
    · intro heq
      cases heq
      exact ⟨l, s₁, hrun, hitems⟩

theorem TableAt.counts_iff (h : TableAt s id name table data rows) {n : Nat} :
    Counts s id name conditions n ↔ ∃ xs, Selects s id name conditions .null xs ∧ xs.size = n := by
  constructor
  · rintro ⟨s', hcount⟩
    obtain ⟨v, s₁, hselect, hrest⟩ := bind_eq_ok hcount
    rcases h.selected conditions s.heap.hasAll_null with
      ⟨e, s₂, -, hrun⟩ | ⟨xs, l, s₂, -, hrun, -, hitems, -⟩
    · cases hrun.symm.trans hselect
    · cases hrun.symm.trans hselect
      refine ⟨xs, ⟨l, _, hrun, hitems⟩, ?_⟩
      have hlength := (bind_ok (length_array l)).symm.trans hrest
      cases hlength
      rw [hitems]
  · rintro ⟨xs, ⟨l, s', hselect, hitems⟩, rfl⟩
    refine ⟨s', (bind_ok hselect).trans ((bind_ok (length_array l)).trans ?_)⟩
    rw [hitems]
    rfl

/-- Where the containers that were there are the same, the same records are selected. -/
theorem TableAt.selects_same (h : TableAt s id name table data rows)
    (hdatabases : s'.databases = s.databases)
    (hcells : ∀ (k : Loc) (c : Cell), s.heap.cells[k]? = some c → s'.heap.cells[k]? = some c)
    (hobjects : ∀ r ∈ rows, s.heap.HasAll (.object r)) (hconditions : s.heap.HasAll conditions)
    (hlimit : s.heap.HasAll limit) (xs : Array Value) :
    Selects s' id name conditions limit xs ↔ Selects s id name conditions limit xs := by
  rw [h.selects_iff hlimit, (h.mono hdatabases hcells).selects_iff (hlimit.mono hcells)]
  exact (pickRecords_same hobjects hconditions hlimit hcells).eq_ok_iff.symm

end

/-- From one setting to another all tables have kept their records, and selecting and counting
report the same. -/
structure Undisturbed (s s' : Setting) : Prop where
  tables {id name table data rows} : TableAt s id name table data rows →
    TableAt s' id name table data rows
  records {id name table data rows} : TableAt s id name table data rows →
    ∀ r ∈ rows, s'.heap.cells[r]? = s.heap.cells[r]?
  selects {id name table data rows conditions limit} : TableAt s id name table data rows →
    (∀ r ∈ rows, s.heap.HasAll (.object r)) → s.heap.HasAll conditions → s.heap.HasAll limit →
    ∀ xs, Selects s' id name conditions limit xs ↔ Selects s id name conditions limit xs
  counts {id name table data rows conditions} : TableAt s id name table data rows →
    (∀ r ∈ rows, s.heap.HasAll (.object r)) → s.heap.HasAll conditions →
    ∀ n, Counts s' id name conditions n ↔ Counts s id name conditions n

/-- Tables are undisturbed for as long as the containers that were there stay as they are. -/
theorem Undisturbed.of_cells {s s' : Setting} (hdatabases : s'.databases = s.databases)
    (hcells : ∀ (k : Loc) (c : Cell), s.heap.cells[k]? = some c → s'.heap.cells[k]? = some c) :
    Undisturbed s s' where
  tables h := h.mono hdatabases hcells
  records h r hr := by
    obtain ⟨es, hes⟩ := h.objects r hr
    rw [hes, hcells r _ hes]
  selects h hobjects hconditions hlimit :=
    h.selects_same hdatabases hcells hobjects hconditions hlimit
  counts h hobjects hconditions n := by
    rw [h.counts_iff, (h.mono hdatabases hcells).counts_iff]
    simp only [h.selects_same hdatabases hcells hobjects hconditions s.heap.hasAll_null]

/-- A table shares the objects that are inserted, and nothing else. An object that was inserted is
the last record: it stays that record however the program changes it, which changes no other record,
and inserting it again gives the same number and makes it two records that are one object. But an
array that was selected with conditions or a limit is no table's: however the program changes it,
all tables have the records they had, and selecting and counting report the same. -/
theorem tables_share_inserted_objects {s : Setting} {id : Nat} {name : Value} {table data : Loc}
    {rows : List Loc} (h : TableAt s id name table data rows) (htables : Apart s id table) :
    (∀ r es v s₁, s.heap.cells[r]? = some (.object es) → r ≠ table → Apart s id r →
      insertRecord id name (.object r) s = .ok v s₁ →
      (∀ (w : World) (cs : List Change), w.toSetting = s₁ →
        TableAt (Change.all (.object r) cs w).toSetting id name table data (rows ++ [r]) ∧
        ∀ k ∈ rows, k ≠ r → (Change.all (.object r) cs w).heap.cells[k]? = s₁.heap.cells[k]?) ∧
      ∃ s₂, insertRecord id name (.object r) s₁ = .ok v s₂ ∧
        TableAt s₂ id name table data (rows ++ [r, r])) ∧
    (∀ conditions limit l s₁, s.heap.HasAll limit →
      s.heap.truthy conditions = true ∨ s.heap.truthy limit = true →
      selectRecords id name conditions limit s = .ok (.array l) s₁ →
      ∀ (w : World) (cs : List Change), w.toSetting = s₁ →
        Undisturbed s (Change.all (.array l) cs w).toSetting) := by
  constructor
  · intro r es v s₁ hr hne hapart hinsert
    obtain ⟨hlast, hdatabases, es₁, hr₁, hid⟩ := h.inserted htables hr hne hapart hinsert
    have hapart₁ : Apart s₁ id r := fun d hd => hapart d (hdatabases ▸ hd)
    constructor
    · rintro w cs rfl
      refine ⟨hlast.changed hr₁ hne hapart₁ cs, fun k hk hkr => ?_⟩
      obtain ⟨fs, hfs⟩ := hlast.objects k (List.mem_append_left _ hk)
      have htouches := (Change.all_touches (l := r) .object cs w).setting
      exact (htouches.cells k _ (by simpa using Ne.symm hkr) hfs).trans hfs.symm
    · obtain ⟨s₂, hagain, htwice⟩ := hlast.insert_again hr₁ hid hne hapart₁
      rw [List.append_assoc] at htwice
      exact ⟨s₂, hagain, htwice⟩
  · rintro conditions limit l s₁ hlimit hnew hselect w cs rfl
    rcases h.selected conditions hlimit with
      ⟨e, s₂, -, hrun⟩ | ⟨xs, k, s₂, -, hrun, hgrows, -, hfresh⟩
    · cases hrun.symm.trans hselect
    · cases hrun.symm.trans hselect
      have htouches := (Change.all_touches (l := l) .array cs w).setting
      refine .of_cells ?_ fun k c hc => htouches.cells k c ?_ (hgrows.cells k c hc)
      · rw [htouches.rest]
        show w.databases = s.databases
        rw [hgrows.rest]
      · -- the array was made after all containers that were there
        obtain ⟨hlt, -⟩ := Array.getElem?_eq_some_iff.1 hc
        have hle := hfresh hnew
        rintro ⟨⟩
        omega

/-- A table of the record at 0, with another object and conditions that it meets at 1 and 2. -/
def oneRecord : Setting where
  heap :=
    { cells := #[.object [(.text "id", .int 1), (.text "k", .int 5)], .object [(.text "k", .int 6)],
        .object [(.text "k", .int 6)], .array #[.object 0], .object [],
        .object [(.text "schema", .object 4), (.text "data", .array 3),
          (.text "auto_increment", .int 2)],
        .object [(.text "t", .object 5)]] }
  databases :=
    { databases :=
        #[{ name := .text "d", tables := .object 6, indexes := .null, file := "d.zendb" }] }

theorem oneRecord_table : TableAt oneRecord 0 (.text "t") 5 3 [0] := by
  refine ⟨rfl, ⟨_, 6, rfl, rfl, rfl⟩, rfl, rfl, fun r hr => ?_⟩
  rw [List.mem_singleton.1 hr]
  exact ⟨_, rfl⟩

theorem oneRecord_apart {l : Loc} (hl : l ≠ 6) : Apart oneRecord 0 l := by
  rintro d ⟨⟩ heq
  cases heq
  exact hl rfl

theorem oneRecord_shared : ∃ v s₁ s₂ l s₃,
    insertRecord 0 (.text "t") (.object 1) oneRecord = .ok v s₁ ∧
    insertRecord 0 (.text "t") (.object 1) s₁ = .ok v s₂ ∧
    TableAt s₂ 0 (.text "t") 5 3 [0, 1, 1] ∧
    selectRecords 0 (.text "t") (.object 2) .null oneRecord = .ok (.array l) s₃ ∧
    Undisturbed oneRecord (Change.all (.array l)
      [.push .null, .pop, .pop] { s₃ with }).toSetting := by
  obtain ⟨hinsert, hselect⟩ :=
    tables_share_inserted_objects oneRecord_table (oneRecord_apart (by decide))
  obtain ⟨-, s₂, hagain, htwice⟩ := hinsert 1 _ (.int 2) _ rfl (by decide)
    (oneRecord_apart (by decide)) rfl
  exact ⟨_, _, s₂, _, _, rfl, hagain, htwice, rfl,
    hselect (.object 2) .null _ _ (Heap.hasAll_null _) (.inl rfl) rfl _ _ rfl⟩

/-- A record that was inserted is counted no more when the program changes the object. -/
theorem oneRecord_changed : ∃ v s₁,
    insertRecord 0 (.text "t") (.object 1) oneRecord = .ok v s₁ ∧
    Counts s₁ 0 (.text "t") (.object 2) 1 ∧
    Counts (Change.all (.object 1) [.member "k" (.int 7)] { s₁ with }).toSetting 0 (.text "t")
      (.object 2) 0 := by
  refine ⟨_, _, rfl, ⟨_, rfl⟩, ⟨_, rfl⟩⟩

/-- A database with a table that has no records, and two objects to insert, one with a number. -/
def emptyTable : Setting where
  heap :=
    { cells := #[.object [(.text "id", .int 1)], .object [(.text "k", .int 5)], .array #[],
        .object [],
        .object [(.text "schema", .object 3), (.text "data", .array 2),
          (.text "auto_increment", .int 1)],
        .object [(.text "t", .object 4)]] }
  databases :=
    { databases :=
        #[{ name := .text "d", tables := .object 5, indexes := .null, file := "d.zendb" }] }

/-- The table does not look at the numbers that records come with: one that comes with the number 1
is followed by one that is given the number 1. -/
theorem emptyTable_gives_twice : ∃ s₁ s₂,
    insertRecord 0 (.text "t") (.object 0) emptyTable = .ok (.int 1) s₁ ∧
    insertRecord 0 (.text "t") (.object 1) s₁ = .ok (.int 1) s₂ ∧
    TableAt s₂ 0 (.text "t") 4 2 [0, 1] ∧
    (s₂.heap.entries 0).field? "id" = some (.int 1) ∧ (s₂.heap.entries 1).field? "id" =
      some (.int 1) := by
  refine ⟨_, _, rfl, rfl, ⟨rfl, ⟨_, 5, rfl, rfl, rfl⟩, rfl, rfl, fun r hr => ?_⟩, rfl, rfl⟩
  fin_cases hr <;> exact ⟨_, rfl⟩

end Package

end ScriptLang
