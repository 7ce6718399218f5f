import ScriptLang.Proofs.Tables

/-!
# Records that meet conditions

Updating changes records while later ones are still to be compared with the conditions, and deleting
changes the array of the table. Neither makes a difference to the comparisons as long as what is
changed lies in none of the compared values, since an equality depends only on the containers inside
its two sides.
-/

namespace ScriptLang

open ScriptLang.Action

/-! ## What an equality depends on -/

/-- A container lies inside a value: it is the value itself, or lies inside one of its parts. -/
inductive Heap.Inside (h : Heap) : Value → Loc → Prop where
  | array (l : Loc) : Heap.Inside h (.array l) l
  | object (l : Loc) : Heap.Inside h (.object l) l
  | item {l k : Loc} {v : Value} (hv : v ∈ (h.items l).toList) (hk : Heap.Inside h v k) :
      Heap.Inside h (.array l) k
  | part {k : Loc} {vs : List Value} {v : Value} (hv : v ∈ vs) (hk : Heap.Inside h v k) :
      Heap.Inside h (.tuple vs) k
  | entry {l k : Loc} {e : Value × Value} (he : e ∈ h.entries l) (hk : Heap.Inside h e.2 k) :
      Heap.Inside h (.object l) k

theorem allEqual_congr {eq eq' : Value → Value → Except Fault Bool} {vs ws : List Value}
    (h : ∀ v ∈ vs, ∀ w ∈ ws, eq' v w = eq v w) : allEqual eq' vs ws = allEqual eq vs ws := by
  induction vs generalizing ws with
  | nil => rfl
  | cons v vs ih =>
    cases ws with
    | nil => rfl
    | cons w ws =>
      have hrest : allEqual eq' vs ws = allEqual eq vs ws :=
        ih fun v hv w hw => h v (List.mem_cons_of_mem _ hv) w (List.mem_cons_of_mem _ hw)
      rw [allEqual, allEqual, h v List.mem_cons_self w List.mem_cons_self, hrest]

theorem entriesEqual_congr {eq eq' : Value → Value → Except Fault Bool} {fs es : Entries}
    (h : ∀ e ∈ es, ∀ v, fs.get? e.1 = some v → eq' e.2 v = eq e.2 v) :
    entriesEqual eq' fs es = entriesEqual eq fs es := by
  induction es with
  | nil => rfl
  | cons e es ih =>
    rw [List.forall_mem_cons] at h
    rw [entriesEqual, entriesEqual, ih h.2]
    cases hget : fs.get? e.1 with
    | none => rfl
    | some v => simp only [h.1 v hget]

/-- Two heaps that have the same containers inside two values agree on whether these are equal. -/
theorem Heap.equal_congr {h h' : Heap} (depth : Nat) {v w : Value}
    (hv : ∀ l, h.Inside v l → h'.cells[l]? = h.cells[l]?)
    (hw : ∀ l, h.Inside w l → h'.cells[l]? = h.cells[l]?) :
    h'.equal depth v w = h.equal depth v w := by
  induction depth generalizing v w with
  | zero => rfl
  | succ depth ih =>
    rw [Heap.equal.eq_def, Heap.equal.eq_def h]
    dsimp only
    split
    · rfl
    · split
      · next _ _ l k _ =>
        rw [Heap.items_congr (hv l (.array l)), Heap.items_congr (hw k (.array k))]
        refine congrArg _ (allEqual_congr fun x hx y hy => ih ?_ ?_)
        · exact fun j hj => hv j (.item hx hj)
        · exact fun j hj => hw j (.item hy hj)
      · next xs ys =>
        refine congrArg _ (allEqual_congr fun x hx y hy => ih ?_ ?_)
        · exact fun j hj => hv j (.part hx hj)
        · exact fun j hj => hw j (.part hy hj)
      · next _ _ l k _ =>
        rw [Heap.entries_congr (hv l (.object l)), Heap.entries_congr (hw k (.object k))]
        refine congrArg _ (entriesEqual_congr fun e he y hy => ih ?_ ?_)
        · exact fun j hj => hv j (.entry he hj)
        · obtain ⟨f, hf, -, rfl⟩ := Entries.mem_of_get? hy
          exact fun j hj => hw j (.entry hf hj)
      · rfl

/-- Whether two values are equal: what is not a number equals nothing. -/
def Heap.compared (h : Heap) (v w : Value) : Except Fault Bool :=
  match v with
  | .nan _ => .ok false
  | v => h.equal valueDepth v w

theorem Heap.compared_congr {h h' : Heap} {v w : Value}
    (hv : ∀ l, h.Inside v l → h'.cells[l]? = h.cells[l]?)
    (hw : ∀ l, h.Inside w l → h'.cells[l]? = h.cells[l]?) : h'.compared v w = h.compared v w := by
  unfold Heap.compared
  split
  · rfl
  · exact Heap.equal_congr valueDepth hv hw

theorem equal_eq {s : Setting} {v w : Value} : equal v w s = ofExcept (s.heap.compared v w) s := by
  cases v <;> rfl

/-! ## Conditions on a record -/

/-- Whether a record has all these fields with equal values. -/
def Heap.meets (h : Heap) (conditions : Entries) (record : Loc) : Bool :=
  conditions.all fun e =>
    match (h.entries record).get? e.1 with
    | some v => h.compared v e.2 = .ok true
    | none => false

/-- The comparison of a record with conditions, up to the first one that it does not meet. -/
def Heap.matchFields (h : Heap) (record : Loc) : Entries → Except Fault Bool
  | [] => .ok true
  | e :: rest =>
      match e.1.unhashable?, (h.entries record).get? e.1 with
      | some type, _ => .error (.unhashable type)
      | none, none => .ok false
      | none, some v => do if ← h.compared v e.2 then h.matchFields record rest else return false

/-- The comparison of a record with conditions has an answer: it does not go too deep. -/
def Heap.Decides (h : Heap) (conditions : Entries) (record : Loc) : Prop :=
  ∃ b, h.matchFields record conditions = .ok b

/-- A container lies inside a value that is compared when a record is compared with conditions. -/
def Heap.Compares (h : Heap) (conditions : Entries) (record l : Loc) : Prop :=
  ∃ e ∈ conditions, ∃ v, (h.entries record).get? e.1 = some v ∧ (h.Inside v l ∨ h.Inside e.2 l)

section

variable {h h' : Heap} {conditions : Entries} {record : Loc}

theorem Heap.meets_of_matchFields {b : Bool} (hb : h.matchFields record conditions = .ok b) :
    h.meets conditions record = b := by
  induction conditions with
  | nil =>
    cases hb
    rfl
  | cons e rest ih =>
    rw [Heap.matchFields] at hb
    rw [Heap.meets, List.all_cons]
    split at hb
    · cases hb
    · next hget =>
      cases hb
      rw [hget]
      rfl
    · next v _ hget =>
      rw [hget]
      dsimp only
      cases hv : h.compared v e.2 with
      | error f =>
        rw [hv] at hb
        cases hb
      | ok same =>
        rw [hv] at hb
        cases same with
        | false =>
          cases hb
          rfl
        | true =>
          rw [decide_eq_true rfl, Bool.true_and]
          exact ih hb

theorem Heap.Decides.matchFields (hd : h.Decides conditions record) :
    h.matchFields record conditions = .ok (h.meets conditions record) := by
  obtain ⟨b, hb⟩ := hd
  rw [hb, Heap.meets_of_matchFields hb]

/-- The comparison of a record with conditions depends on the record and on what is compared
alone. -/
theorem Heap.matchFields_congr (hrecord : h'.cells[record]? = h.cells[record]?)
    (hparts : ∀ l, h.Compares conditions record l → h'.cells[l]? = h.cells[l]?) :
    h'.matchFields record conditions = h.matchFields record conditions := by
  have hentries : h'.entries record = h.entries record := Heap.entries_congr hrecord
  induction conditions with
  | nil => rfl
  | cons e rest ih =>
    have hrest : h'.matchFields record rest = h.matchFields record rest :=
      ih fun l ⟨f, hf, hl⟩ => hparts l ⟨f, List.mem_cons_of_mem _ hf, hl⟩
    rw [Heap.matchFields, Heap.matchFields, hentries]
    split
    · rfl
    · rfl
    · next v _ hget =>
      have hsame : h'.compared v e.2 = h.compared v e.2 :=
        Heap.compared_congr (fun l hl => hparts l ⟨e, List.mem_cons_self, v, hget, .inl hl⟩)
          fun l hl => hparts l ⟨e, List.mem_cons_self, v, hget, .inr hl⟩
      rw [hsame, hrest]

end

namespace Package

theorem fieldsMatch_eq {s : Setting} {record : Loc} {conditions : Entries} :
    fieldsMatch (.object record) conditions s =
      ofExcept (s.heap.matchFields record conditions) s := by
  induction conditions with
  | nil => rfl
  | cons e rest ih =>
    obtain ⟨k, w⟩ := e
    rw [fieldsMatch, Heap.matchFields]
    cases hk : k.unhashable? with
    | some type => exact bind_error (contains_unhashable hk)
    | none =>
      refine (bind_ok (contains_object hk)).trans ?_
      cases hget : (s.heap.entries record).get? k with
      | none =>
        rw [Entries.not_has_of_get? hget]
        rfl
      | some v =>
        rw [if_pos (Entries.has_of_get? hget)]
        refine (bind_ok (getItem_object hk hget)).trans ?_
        dsimp only
        cases hv : s.heap.compared v w with
        | error f =>
          have hfail : equal v w s = ofExcept (.error f) s := by rw [equal_eq, hv]
          exact bind_error hfail
        | ok same =>
          have hok : equal v w s = .ok same s := by
            rw [equal_eq, hv]
            rfl
          refine (bind_ok hok).trans ?_
          cases same with
          | false => rfl
          | true => exact ih

/-! ## The four operations -/

/-- The records of a table that meet conditions, in the order of the table. -/
def matching (h : Heap) (conditions : Entries) (rows : List Loc) : List Loc :=
  rows.filter (h.meets conditions)

/-- Conditions are an object that is no record itself, and the comparison of every record with them
has an answer. -/
structure Answerable (s : Setting) (rows : List Loc) (conditions : Loc) (cs : Entries) : Prop where
  cell : s.heap.cells[conditions]? = some (.object cs)
  apart : conditions ∉ rows
  decides : ∀ r ∈ rows, s.heap.Decides cs r

/-- The change from one setting to another in which some records got the entries of an object and
then the time, and nothing else changed. -/
structure Updated (s s' : Setting) (records : List Loc) (changes : Entries) : Prop where
  rest : s' = { s with heap := s'.heap }
  changed : ∀ r ∈ records, ∀ es, s.heap.cells[r]? = some (.object es) →
    s'.heap.cells[r]? =
    some (.object ((es.merge changes).put (.text "_updated_at") (.float s.clock)))
  others : ∀ l, l ∉ records → s'.heap.cells[l]? = s.heap.cells[l]?

section

variable {s : Setting} {id : Nat} {name : Value} {table data : Loc} {rows : List Loc}
  {conditions : Loc} {cs : Entries}

theorem mem_matching {h : Heap} {r : Loc} :
    r ∈ matching h cs rows ↔ r ∈ rows ∧ h.meets cs r = true :=
  List.mem_filter

theorem matching_nil (h : Heap) (rows : List Loc) : matching h [] rows = rows :=
  List.filter_eq_self.2 fun _ _ => rfl

theorem Answerable.fieldsOf_ok (h : Answerable s rows conditions cs) :
    fieldsOf (.object conditions) s = .ok cs s := by
  show EStateM.Result.ok (s.heap.entries conditions) s = _
  rw [Heap.entries_eq h.cell]

theorem Answerable.meets_ok (h : Answerable s rows conditions cs) {r : Loc} (hr : r ∈ rows) :
    meets (.object conditions) (.object r) s = .ok (s.heap.meets cs r) s := by
  refine (bind_ok h.fieldsOf_ok).trans ?_
  rw [fieldsMatch_eq, (h.decides r hr).matchFields]
  rfl

/-- Where conditions are compared with the same records and values, they have the same answers. -/
theorem Answerable.congr (h : Answerable s rows conditions cs) (s' : Setting) {rest : List Loc}
    (hsub : ∀ r ∈ rest, r ∈ rows) (hcell : s'.heap.cells[conditions]? = s.heap.cells[conditions]?)
    (hrows : ∀ r ∈ rest, s'.heap.cells[r]? = s.heap.cells[r]?)
    (hparts : ∀ r ∈ rest, ∀ l, s.heap.Compares cs r l → s'.heap.cells[l]? = s.heap.cells[l]?) :
    Answerable s' rest conditions cs ∧ ∀ r ∈ rest, s'.heap.meets cs r = s.heap.meets cs r := by
  have hmatch (r : Loc) (hr : r ∈ rest) : s'.heap.matchFields r cs = .ok (s.heap.meets cs r) := by
    rw [Heap.matchFields_congr (hrows r hr) (hparts r hr), (h.decides r (hsub r hr)).matchFields]
  refine ⟨⟨hcell.trans h.cell, fun hr => h.apart (hsub _ hr), fun r hr => ⟨_, hmatch r hr⟩⟩, ?_⟩
  exact fun r hr => Heap.meets_of_matchFields (hmatch r hr)

/-- A test of records by their locations. -/
def onRecord (p : Loc → Bool) : Value → Bool
  | .object r => p r
  | _ => false

theorem filterM_records {f : Value → Routine Bool} {p : Loc → Bool}
    (h : ∀ r ∈ rows, f (.object r) s = .ok (p r) s) :
    (rows.map Value.object).filterM f s = .ok ((rows.filter p).map Value.object) s := by
  have hfilter : (rows.map Value.object).filter (onRecord p) =
      (rows.filter p).map Value.object := by
    rw [List.filter_map]
    rfl
  rw [← hfilter]
  refine filterM_ok fun v hv => ?_
  obtain ⟨r, hr, rfl⟩ := List.mem_map.1 hv
  exact h r hr

/-! ### Selecting and counting -/

theorem Answerable.truthy_ok (h : Answerable s rows conditions cs) :
    truthy (.object conditions) s = .ok (!cs.isEmpty) s := by
  show EStateM.Result.ok (!(s.heap.entries conditions).isEmpty) s = _
  rw [Heap.entries_eq h.cell]

theorem selectRecords_new (htable : TableAt s id name table data rows)
    (h : Answerable s rows conditions cs) (hcs : cs ≠ []) :
    selectRecords id name (.object conditions) .null s = .ok (.array s.heap.cells.size)
      (s.withCell (.array ((matching s.heap cs rows).map Value.object).toArray)) := by
  have htruthy := h.truthy_ok
  rw [List.isEmpty_eq_false_iff.2 hcs] at htruthy
  refine (bind_ok htable.recordsOf_ok).trans ((bind_ok htruthy).trans ?_)
  rw [Bool.not_false, if_pos rfl]
  refine (bind_ok htable.iterate_ok).trans ?_
  exact (bind_ok (filterM_records fun r hr => h.meets_ok hr)).trans rfl

theorem selectRecords_ok (htable : TableAt s id name table data rows)
    (h : Answerable s rows conditions cs) :
    ∃ l s', selectRecords id name (.object conditions) .null s = .ok (.array l) s' ∧ s.Grows s' ∧
      s'.heap.items l = ((matching s.heap cs rows).map Value.object).toArray := by
  by_cases hcs : cs = []
  · -- without conditions the table's own array is selected
    subst hcs
    refine ⟨data, s, ?_, .refl s, by rw [Heap.items_eq htable.cell, matching_nil]⟩
    exact (bind_ok htable.recordsOf_ok).trans ((bind_ok h.truthy_ok).trans rfl)
  · exact ⟨_, _, selectRecords_new htable h hcs, .push s _,
      Heap.items_eq (by simp [Setting.withCell])⟩

theorem countRecords_ok (htable : TableAt s id name table data rows)
    (h : Answerable s rows conditions cs) :
    ∃ s', countRecords id name (.object conditions) s =
      .ok (.int (matching s.heap cs rows).length) s' ∧ s.Grows s' := by
  obtain ⟨l, s', hselect, hgrows, hitems⟩ := selectRecords_ok htable h
  refine ⟨s', (bind_ok hselect).trans ((bind_ok (length_array l)).trans ?_), hgrows⟩
  rw [hitems, List.size_toArray, List.length_map]
  rfl

/-! ### Updating -/

variable {changes : Loc} {us : Entries} {done : List Loc} {s₁ : Setting}

theorem Updated.refl (s : Setting) (us : Entries) : Updated s s [] us :=
  ⟨rfl, nofun, fun _ _ => rfl⟩

theorem Updated.snoc (h : Updated s s₁ done us) {r : Loc} {es : Entries} (hr : r ∉ done)
    (hcell : s.heap.cells[r]? = some (.object es)) :
    Updated s (s₁.setCell r (.object ((es.merge us).put (.text "_updated_at") (.float s.clock))))
      (done ++ [r]) us where
  rest := by
    rw [Setting.setCell, h.rest]
  changed k hk fs hfs := by
    by_cases heq : k = r
    · subst heq
      cases hcell.symm.trans hfs
      exact Setting.setCell_self ((h.others k hr).trans hcell)
    · rw [Setting.setCell_of_ne heq]
      refine h.changed k ?_ fs hfs
      simpa [heq] using hk
  others l hl := by
    rw [List.mem_append, List.mem_singleton, not_or] at hl
    rw [Setting.setCell_of_ne hl.2, h.others l hl.1]

/-- A record is updated after others were: it is compared with the conditions as if they had not
been, since none of them is compared. -/
theorem updateRecord_ok (h : Answerable s rows conditions cs)
    (hchanges : s.heap.cells[changes]? = some (.object us)) (hus : ∀ e ∈ us, e.1.unhashable? = none)
    (hdone : Updated s s₁ done us) (hcs : conditions ∉ done) (hnot : changes ∉ done)
    (hparts : ∀ l ∈ done, ∀ r ∈ rows, ¬ s.heap.Compares cs r l) {r : Loc} {es : Entries}
    (hr : r ∈ rows) (hnew : r ∉ done) (hcell : s.heap.cells[r]? = some (.object es)) (n : Nat) :
    updateRecord (.object conditions) (.object changes) n (.object r) s₁ =
      if s.heap.meets cs r then .ok (n + 1)
        (s₁.setCell r (.object ((es.merge us).put (.text "_updated_at") (.float s.clock))))
      else .ok n s₁ := by
  have hsingle : ∀ k ∈ [r], k ∈ rows := by simpa using hr
  obtain ⟨hanswer, hsame⟩ := h.congr s₁ hsingle (hdone.others _ hcs)
    (by simpa using hdone.others r hnew) fun k hk l hl =>
      hdone.others l fun hmem => hparts l hmem k (hsingle k hk) hl
  have hmeets : meets (.object conditions) (.object r) s₁ = .ok (s.heap.meets cs r) s₁ := by
    rw [hanswer.meets_ok List.mem_cons_self, hsame r List.mem_cons_self]
  refine (bind_ok hmeets).trans ?_
  split
  · have hfields : fieldsOf (.object changes) s₁ = .ok us s₁ := by
      show EStateM.Result.ok (s₁.heap.entries changes) s₁ = _
      rw [Heap.entries_eq ((hdone.others _ hnot).trans hchanges)]
    have hcell₁ : s₁.heap.cells[r]? = some (.object es) := (hdone.others r hnew).trans hcell
    have hclock : s₁.clock = s.clock := by rw [hdone.rest]
    refine (bind_ok hfields).trans ?_
    refine (bind_ok (setItems_object hus hcell₁)).trans ((bind_ok rfl).trans ?_)
    have hstamp := setItem_object (k := .text "_updated_at") (v := .float s₁.clock) rfl
      (Setting.setCell_self (c := .object (es.merge us)) hcell₁)
    rw [Setting.setCell_setCell] at hstamp
    rw [← hclock]
    exact (bind_ok hstamp).trans rfl
  · rfl

/-- All records are gone through: those that met the conditions at the start are updated. -/
theorem updateAll_ok (h : Answerable s rows conditions cs)
    (hobjects : ∀ r ∈ rows, ∃ es, s.heap.cells[r]? = some (.object es)) (hdistinct : rows.Nodup)
    (hchanges : s.heap.cells[changes]? = some (.object us)) (hus : ∀ e ∈ us, e.1.unhashable? = none)
    (hnot : changes ∉ rows)
    (hparts : ∀ l ∈ matching s.heap cs rows, ∀ r ∈ rows, ¬ s.heap.Compares cs r l) :
    ∃ s', (rows.map Value.object).foldlM (updateRecord (.object conditions) (.object changes)) 0 s =
      .ok (matching s.heap cs rows).length s' ∧ Updated s s' (matching s.heap cs rows) us := by
  -- by induction on the records that are left, the others being updated already
  have loop (before rest : List Loc) (hrows : rows = before ++ rest) (s₁ : Setting)
      (hdone : Updated s s₁ (matching s.heap cs before) us) :
      ∃ s', (rest.map Value.object).foldlM (updateRecord (.object conditions) (.object changes))
          (matching s.heap cs before).length s₁ = .ok (matching s.heap cs rows).length s' ∧
        Updated s s' (matching s.heap cs rows) us := by
    induction rest generalizing before s₁ with
    | nil =>
      rw [List.append_nil] at hrows
      subst hrows
      exact ⟨s₁, rfl, hdone⟩
    | cons r rest ih =>
      have hsub : ∀ l ∈ matching s.heap cs before, l ∈ rows := fun l hl => by
        rw [hrows]
        exact List.mem_append_left _ (mem_matching.1 hl).1
      have hmatched : ∀ l ∈ matching s.heap cs before, l ∈ matching s.heap cs rows := fun l hl =>
        mem_matching.2 ⟨hsub l hl, (mem_matching.1 hl).2⟩
      have hr : r ∈ rows := by simp [hrows]
      have hnew : r ∉ matching s.heap cs before := fun hmem => by
        rw [hrows, List.nodup_append] at hdistinct
        exact hdistinct.2.2 r (mem_matching.1 hmem).1 r List.mem_cons_self rfl
      obtain ⟨es, hes⟩ := hobjects r hr
      have hstep := updateRecord_ok h hchanges hus hdone (fun hl => h.apart (hsub _ hl))
        (fun hl => hnot (hsub _ hl)) (fun l hl => hparts l (hmatched l hl)) hr hnew hes
        (matching s.heap cs before).length
      have hbefore : matching s.heap cs (before ++ [r]) =
          matching s.heap cs before ++ if s.heap.meets cs r then [r] else [] := by
        rw [matching, List.filter_append, List.filter_singleton, cond_eq_ite]
        rfl
      rw [List.map_cons, List.foldlM_cons]
      split at hstep
      · next hmeets =>
        rw [bind_ok hstep]
        rw [if_pos hmeets] at hbefore
        have := ih (before ++ [r]) (by simp [hrows]) _ (hbefore ▸ hdone.snoc hnew hes)
        rwa [hbefore, List.length_append] at this
      · next hmeets =>
        rw [bind_ok hstep]
        rw [if_neg hmeets, List.append_nil] at hbefore
        have := ih (before ++ [r]) (by simp [hrows]) _ (hbefore ▸ hdone)
        rwa [hbefore] at this
  exact loop [] rows rfl s (Updated.refl s us)

/-! ### Deleting -/

/-- The records of a table that do not meet conditions, in the order of the table. -/
def leftOver (h : Heap) (conditions : Entries) (rows : List Loc) : List Loc :=
  rows.filter fun r => !h.meets conditions r

theorem deleteRecords_ok (htable : TableAt s id name table data rows)
    (h : Answerable s rows conditions cs) :
    deleteRecords id name (.object conditions) s = .ok (.int (matching s.heap cs rows).length)
      (s.setCell data (.array ((leftOver s.heap cs rows).map Value.object).toArray)) := by
  have hkept : ((rows.map Value.object).filterM
      (fun r => do return !(← meets (.object conditions) r)) : Routine (List Value)) s =
      .ok ((leftOver s.heap cs rows).map Value.object) s :=
    filterM_records fun r hr => (bind_ok (h.meets_ok hr)).trans rfl
  have hset : setItems data ((leftOver s.heap cs rows).map Value.object).toArray s = .ok ()
      (s.setCell data (.array ((leftOver s.heap cs rows).map Value.object).toArray)) :=
    modifyItems_ok htable.cell
  have hcount :
      (rows.map Value.object).length - ((leftOver s.heap cs rows).map Value.object).length =
      (matching s.heap cs rows).length := by
    have hsplit := List.length_eq_length_filter_add (l := rows) (s.heap.meets cs)
    rw [List.length_map, List.length_map, leftOver, matching]
    omega
  refine (bind_ok htable.recordsOf_ok).trans ((bind_ok htable.iterate_ok).trans ?_)
  refine (bind_ok hkept).trans ?_
  dsimp only
  rw [hcount]
  exact (bind_ok hset).trans rfl

/-- A table is where it was after its array was given other records. -/
theorem TableAt.setData (htable : TableAt s id name table data rows) {rest : List Loc}
    (hobjects : ∀ r ∈ rest, ∃ es, s.heap.cells[r]? = some (.object es)) :
    TableAt (s.setCell data (.array (rest.map Value.object).toArray)) id name table data rest := by
  have hobject {l : Loc} {k v : Value} (hget : (s.heap.entries l).get? k = some v) : l ≠ data := by
    rintro rfl
    rw [Heap.entries, htable.cell] at hget
    cases hget
  have hentries {l : Loc} (hl : l ≠ data) :
      (s.setCell data (.array (rest.map Value.object).toArray)).heap.entries l = s.heap.entries l :=
    Heap.entries_congr (Setting.setCell_of_ne hl)
  obtain ⟨d, tables, hd, htables, hget⟩ := htable.database
  refine ⟨htable.key, ⟨d, tables, hd, htables, ?_⟩, ?_, Setting.setCell_self htable.cell, ?_⟩
  · rw [hentries (hobject hget), hget]
  · rw [hentries (hobject htable.array), htable.array]
  · intro r hr
    obtain ⟨es, hes⟩ := hobjects r hr
    refine ⟨es, ?_⟩
    rw [Setting.setCell_of_ne, hes]
    rintro rfl
    cases hes.symm.trans htable.cell

/-- After records were deleted none is left that meets the conditions, as long as the array of the
table was not compared. -/
theorem countRecords_deleted (htable : TableAt s id name table data rows)
    (h : Answerable s rows conditions cs) (hparts : ∀ r ∈ rows, ¬ s.heap.Compares cs r data) :
    ∃ s', countRecords id name (.object conditions)
      (s.setCell data (.array ((leftOver s.heap cs rows).map Value.object).toArray)) =
        .ok (.int 0) s' := by
  have hsub : ∀ r ∈ leftOver s.heap cs rows, r ∈ rows := fun r hr => (List.mem_filter.1 hr).1
  have hother {l : Loc} {es : Entries} (hl : s.heap.cells[l]? = some (.object es)) : l ≠ data := by
    rintro rfl
    cases hl.symm.trans htable.cell
  obtain ⟨hanswer, hsame⟩ := h.congr (s.setCell data _) hsub
    (Setting.setCell_of_ne (hother h.cell))
    (fun r hr => Setting.setCell_of_ne (hother (htable.objects r (hsub r hr)).choose_spec))
    fun r hr l hl => Setting.setCell_of_ne fun heq => hparts r (hsub r hr) (heq ▸ hl)
  have hnone : matching (s.setCell data
      (.array ((leftOver s.heap cs rows).map Value.object).toArray)).heap cs
      (leftOver s.heap cs rows) = [] := by
    rw [matching, List.filter_eq_nil_iff]
    intro r hr
    rw [hsame r hr]
    simpa using (List.mem_filter.1 hr).2
  have hleft := htable.setData fun r hr => htable.objects r (hsub r hr)
  obtain ⟨s', hcount, -⟩ := countRecords_ok hleft hanswer
  rw [hnone] at hcount
  exact ⟨s', hcount⟩

/-- Selecting, counting, updating and deleting go by the same records: those that meet the
conditions. A selection has them in the order of the table, and a count and both changes give their
number. An update changes these records alone, unless one of them is compared itself. A deletion
leaves the others in their order, and then none is left that meets the conditions, unless the array
of the table is compared itself. Without conditions all records are meant. -/
theorem operations_agree_on_matching (htable : TableAt s id name table data rows)
    (hdistinct : rows.Nodup) (h : Answerable s rows conditions cs) :
    (∃ l s', selectRecords id name (.object conditions) .null s = .ok (.array l) s' ∧ s.Grows s' ∧
      s'.heap.items l = ((matching s.heap cs rows).map Value.object).toArray) ∧
    (∃ s', countRecords id name (.object conditions) s =
      .ok (.int (matching s.heap cs rows).length) s' ∧ s.Grows s') ∧
    (∀ changes us, s.heap.cells[changes]? = some (.object us) →
      (∀ e ∈ us, e.1.unhashable? = none) → changes ∉ rows →
      (∀ l ∈ matching s.heap cs rows, ∀ r ∈ rows, ¬ s.heap.Compares cs r l) →
      ∃ s', updateRecords id name (.object conditions) (.object changes) s =
          .ok (.int (matching s.heap cs rows).length) s' ∧
        Updated s s' (matching s.heap cs rows) us ∧ s'.heap.cells[data]? = s.heap.cells[data]? ∧
        (table ∉ rows → s'.heap.cells[table]? = s.heap.cells[table]?)) ∧
    (∃ s', deleteRecords id name (.object conditions) s =
        .ok (.int (matching s.heap cs rows).length) s' ∧
      s' = s.setCell data (.array ((leftOver s.heap cs rows).map Value.object).toArray) ∧
      ((∀ r ∈ rows, ¬ s.heap.Compares cs r data) →
        ∃ s'', countRecords id name (.object conditions) s' = .ok (.int 0) s'')) ∧
    (cs = [] → matching s.heap cs rows = rows) := by
  refine ⟨selectRecords_ok htable h, countRecords_ok htable h, ?_, ?_, ?_⟩
  · intro changes us hchanges hus hnot hparts
    obtain ⟨s', hall, hupdated⟩ := updateAll_ok h htable.objects hdistinct hchanges hus hnot hparts
    have hrows {l : Loc} (hl : l ∉ rows) : s'.heap.cells[l]? = s.heap.cells[l]? :=
      hupdated.others l fun hmem => hl (mem_matching.1 hmem).1
    have hdata : data ∉ rows := fun hmem => by
      obtain ⟨es, hes⟩ := htable.objects data hmem
      cases hes.symm.trans htable.cell
    refine ⟨s', ?_, hupdated, hrows hdata, hrows⟩
    rw [updateRecords]
    refine (bind_ok htable.recordsOf_ok).trans ((bind_ok htable.iterate_ok).trans ?_)
    exact (bind_ok hall).trans rfl
  · exact ⟨_, deleteRecords_ok htable h, rfl, countRecords_deleted htable h⟩
  · rintro rfl
    exact matching_nil s.heap rows

end

/-- A table of the records at 0 and 1, with conditions at 2 that the first one meets and changes at
3. -/
def twoRecords : Setting where
  heap :=
    { cells := #[.object [(.text "id", .int 1), (.text "k", .int 5)],
        .object [(.text "id", .int 2), (.text "k", .int 6)], .object [(.text "k", .int 5)],
        .object [(.text "k", .int 7)], .array #[.object 0, .object 1], .object [],
        .object [(.text "schema", .object 5), (.text "data", .array 4),
          (.text "auto_increment", .int 3)],
        .object [(.text "t", .object 6)]] }
  databases :=
    { databases :=
        #[{ name := .text "d", tables := .object 7, indexes := .null, file := "d.zendb" }] }

theorem twoRecords_table : TableAt twoRecords 0 (.text "t") 6 4 [0, 1] where
  key := rfl
  database := ⟨_, 7, rfl, rfl, rfl⟩
  array := rfl
  cell := rfl
  objects r hr := by
    simp only [List.mem_cons, List.not_mem_nil, or_false] at hr
    rcases hr with rfl | rfl <;> exact ⟨_, rfl⟩

theorem twoRecords_agree : ∃ l s₁ s₂ s₃ s₄ s₅,
    selectRecords 0 (.text "t") (.object 2) .null twoRecords = .ok (.array l) s₁ ∧
    s₁.heap.items l = #[.object 0] ∧
    countRecords 0 (.text "t") (.object 2) twoRecords = .ok (.int 1) s₂ ∧
    updateRecords 0 (.text "t") (.object 2) (.object 3) twoRecords = .ok (.int 1) s₃ ∧
    Updated twoRecords s₃ [0] [(.text "k", .int 7)] ∧
    deleteRecords 0 (.text "t") (.object 2) twoRecords = .ok (.int 1) s₄ ∧
    countRecords 0 (.text "t") (.object 2) s₄ = .ok (.int 0) s₅ := by
  have hanswer : Answerable twoRecords [0, 1] 2 [(.text "k", .int 5)] := by
    refine ⟨rfl, by decide, fun r hr => ?_⟩
    simp only [List.mem_cons, List.not_mem_nil, or_false] at hr
    rcases hr with rfl | rfl
    · exact ⟨true, by decide +kernel⟩
    · exact ⟨false, by decide +kernel⟩
  have hmatching : matching twoRecords.heap [(.text "k", .int 5)] [0, 1] = [0] := by decide +kernel
  -- whole numbers have no parts, so nothing else is compared
  have hparts (r : Loc) (hr : r ∈ [0, 1]) (l : Loc) :
      ¬ twoRecords.heap.Compares [(.text "k", .int 5)] r l := by
    rintro ⟨e, he, v, hv, hinside⟩
    simp only [List.mem_cons, List.not_mem_nil, or_false] at he hr
    subst he
    rcases hr with rfl | rfl <;> cases hv <;> rcases hinside with hinside | hinside <;>
      cases hinside
  obtain ⟨⟨l, s₁, hselect, -, hitems⟩, ⟨s₂, hcount, -⟩, hupdate, ⟨s₄, hdelete, -, hgone⟩, -⟩ :=
    operations_agree_on_matching twoRecords_table (by decide) hanswer
  obtain ⟨s₃, hupdate, hupdated, -⟩ := hupdate 3 [(.text "k", .int 7)] rfl
    (List.forall_mem_singleton.2 rfl) (by decide) fun l _ r hr => hparts r hr l
  obtain ⟨s₅, hgone⟩ := hgone fun r hr => hparts r hr 4
  rw [hmatching] at hitems hcount hupdate hupdated hdelete
  exact ⟨l, s₁, s₂, s₃, s₄, s₅, hselect, hitems, hcount, hupdate, hupdated, hdelete, hgone⟩

/-- A table of the records at 2 and 4, where the second one has the first one in it. What the
conditions at 6 ask for is what the first record becomes when it gets the changes at 7. -/
def nestedRecords : Setting where
  heap :=
    { cells := #[.object [(.text "id", .int 1), (.text "p", .int 5),
          (.text "_updated_at", .float 1700000000.0)],
        .array #[.object 0], .object [(.text "id", .int 1), (.text "p", .array 1)],
        .array #[.object 2], .object [(.text "id", .int 2), (.text "p", .array 3)],
        .array #[.object 0], .object [(.text "p", .array 5)], .object [(.text "p", .int 5)],
        .array #[.object 2, .object 4], .object [],
        .object [(.text "schema", .object 9), (.text "data", .array 8),
          (.text "auto_increment", .int 1)],
        .object [(.text "t", .object 10)]] }
  databases :=
    { databases :=
        #[{ name := .text "d", tables := .object 11, indexes := .null, file := "d.zendb" }] }

/-- An update can find more records than a count: changing one makes another meet the conditions. -/
theorem nestedRecords_disagree :
    TableAt nestedRecords 0 (.text "t") 10 8 [2, 4] ∧ [2, 4].Nodup ∧ 6 ∉ [2, 4] ∧ 7 ∉ [2, 4] ∧
      matching nestedRecords.heap (nestedRecords.heap.entries 6) [2, 4] = [2] ∧
      ∃ s', updateRecords 0 (.text "t") (.object 6) (.object 7) nestedRecords =
        .ok (.int 2) s' := by
  have hrun : passes (fun v => v.whole? == some 2)
    (updateRecords 0 (.text "t") (.object 6) (.object 7) nestedRecords) = true := by decide +kernel
  have htable : TableAt nestedRecords 0 (.text "t") 10 8 [2, 4] := by
    refine ⟨rfl, ⟨_, 11, rfl, rfl, rfl⟩, rfl, rfl, fun r hr => ?_⟩
    simp only [List.mem_cons, List.not_mem_nil, or_false] at hr
    rcases hr with rfl | rfl <;> exact ⟨_, rfl⟩
  refine ⟨htable, by decide, by decide, by decide, by decide +kernel, ?_⟩
  obtain ⟨v, s', heq, hv⟩ := exists_of_passes hrun
  exact ⟨s', by rw [heq, Value.eq_int_of_whole? (by decide) (beq_iff_eq.1 hv)]⟩

end Package

end ScriptLang
