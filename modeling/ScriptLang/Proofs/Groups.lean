import ScriptLang.Proofs.ArrayParts

/-!
# Groups

Grouping an array by a function without effect makes one new array for each key, in the order in
which the keys first occur (`Gathered`).
-/

namespace ScriptLang

open ScriptLang.Action

/-! ## Keys in order of first occurrence -/

/-- The distinct texts of a list, in the order in which they first occur. -/
def firsts (ts : List String) : List String :=
  ts.reverse.dedup.reverse

theorem mem_firsts {t : String} {ts : List String} : t ∈ firsts ts ↔ t ∈ ts := by
  simp [firsts]

theorem firsts_append (ts : List String) (t : String) :
    firsts (ts ++ [t]) = if t ∈ firsts ts then firsts ts else firsts ts ++ [t] := by
  by_cases h : t ∈ ts <;> simp [firsts, h]

/-- The numbers of times that the texts occur add up. -/
theorem sum_count_firsts (ts : List String) : ((firsts ts).map ts.count).sum = ts.length := by
  have hsum := List.sum_map_count_dedup_eq_length ts.reverse
  simp only [List.count_reverse, List.length_reverse] at hsum
  rw [firsts, List.map_reverse, List.sum_reverse, hsum]

/-- Entries at texts, in the order in which these first occur. -/
def keyed (ts : List String) (v : String → Value) : Entries :=
  (firsts ts).map fun t => (.text t, v t)

section

variable (ts : List String) (v : String → Value) (t : String)

theorem get?_keyed : (keyed ts v).get? (.text t) = if t ∈ ts then some (v t) else none := by
  have hall (ks : List String) : Entries.get? (ks.map fun k => (.text k, v k)) (.text t) =
      if t ∈ ks then some (v t) else none := by
    induction ks with
    | nil => rfl
    | cons k ks ih =>
      rw [List.map_cons, Entries.get?, ih]
      by_cases h : k = t
      · simp [h, Value.sameKey_text]
      · simp [Value.sameKey_text, h, Ne.symm h]
  simp only [keyed, hall, mem_firsts]

theorem put_keyed (new : Value) :
    (keyed ts v).put (.text t) new = keyed (ts ++ [t]) (Function.update v t new) := by
  have hall (ks : List String) (hks : ks.Nodup) :
      Entries.put (ks.map fun k => (.text k, v k)) (.text t) new =
      (if t ∈ ks then ks else ks ++ [t]).map fun k => (.text k, Function.update v t new k) := by
    induction ks with
    | nil => simp [Entries.put]
    | cons k ks ih =>
      rw [List.nodup_cons] at hks
      rw [List.map_cons, Entries.put]
      by_cases h : k = t
      · subst h
        have hothers : ks.map (fun j => (Value.text j, v j)) =
            ks.map fun j => (.text j, Function.update v k new j) :=
          List.map_congr_left fun j hj => by
          rw [Function.update_of_ne (ne_of_mem_of_not_mem hj hks.1)]
        simp [Value.sameKey_text, hothers]
      · rw [ih hks.2]
        by_cases hmem : t ∈ ks <;> simp [Value.sameKey_text, h, Ne.symm h, hmem]
  rw [keyed, keyed, firsts_append]
  exact hall _ (List.nodup_reverse.2 (List.nodup_dedup _))

theorem keyed_of_mem {ts : List String} {v : String → Value} {t : String} (h : t ∈ ts) :
    keyed (ts ++ [t]) v = keyed ts v := by
  rw [keyed, firsts_append, if_pos (mem_firsts.2 h), keyed]

end

variable {w w₁ : World} {l : Loc} {xs done : List Value} {label : Value → String} {x : Value}
  {group : String → Loc}

/-! ## Groups of items -/

/-- Called with any of the items, a function gives a value of some text. It has no effect, so that
it gives the same whatever is added to the world in between. -/
def Labels (call : Caller) (f : Value) (label : Value → String) (xs : List Value) (w : World) :
    Prop :=
  ∀ w₁, w.Extends w₁ → ∀ x ∈ xs, ∃ v w₂, call f [x] w₁ = .ok v w₂ ∧ w₁.Extends w₂ ∧
    text v w₂.toSetting = .ok (label x) w₂.toSetting

/-- The items of a list with a key. -/
def having (label : Value → String) (t : String) (xs : List Value) : List Value :=
  xs.filter fun x => label x = t

theorem having_append (t : String) :
    having label t (done ++ [x]) = having label t done ++ if label x = t then [x] else [] := by
  by_cases h : label x = t <;> simp [having, h]

/-- The groups of the items so far are new arrays. -/
structure Gathered (label : Value → String) (w : World) (done : List Value) (group : String → Loc)
    (w₁ : World) : Prop where
  grows : w.Extends w₁
  groups : ∀ t ∈ done.map label, w.heap.cells[group t]? = none ∧
    w₁.heap.cells[group t]? = some (.array (having label t done).toArray)

/-- The world with one more item in an array. -/
def World.pushItem (w : World) (l : Loc) (x : Value) : World :=
  { w with heap := { w.heap with cells := w.heap.cells.modify l (.mapItems (·.push x)) } }

namespace Gathered

theorem mono (h : Gathered label w done group w₁) {w₂ : World} (hgrows : w₁.Extends w₂) :
    Gathered label w done group w₂ :=
  ⟨h.grows.trans hgrows, fun t ht => (h.groups t ht).imp_right hgrows.cell⟩

/-- Groups with different keys are apart, as no item is in two of them. -/
theorem apart (h : Gathered label w done group w₁) {t u : String} (ht : t ∈ done.map label)
    (hu : u ∈ done.map label) (heq : group t = group u) : t = u := by
  obtain ⟨y, hy, rfl⟩ := List.mem_map.1 ht
  have hitems := (h.groups _ ht).2
  rw [heq, (h.groups u hu).2] at hitems
  have hsame : having label u done = having label (label y) done := by simpa using hitems
  have hmem : y ∈ having label u done := hsame ▸ List.mem_filter.2 ⟨hy, by simp⟩
  simpa [having] using (List.mem_filter.1 hmem).2

/-- An item with a new key is the first of a group. -/
theorem begun (h : Gathered label w done group w₁) (hnew : label x ∉ done.map label) :
    Gathered label w (done ++ [x]) (Function.update group (label x) w₁.heap.cells.size)
      (w₁.pushCell (.array #[x])) := by
  refine ⟨h.grows.trans (.pushCell w₁ _), fun t ht => ?_⟩
  rw [having_append]
  by_cases heq : t = label x
  · have hnone : having label (label x) done = [] := by simpa [having] using hnew
    rw [heq, hnone, if_pos rfl, Function.update_self]
    exact ⟨h.grows.fresh w₁.getElem?_size, w₁.pushCell_new _⟩
  · rw [if_neg (Ne.symm heq), List.append_nil, Function.update_of_ne heq]
    exact (h.groups t (by simpa [heq] using ht)).imp_right (World.Extends.pushCell w₁ _).cell

/-- An item with an old key is added to its group. -/
theorem added (h : Gathered label w done group w₁) (hold : label x ∈ done.map label) :
    Gathered label w (done ++ [x]) group (w₁.pushItem (group (label x)) x) := by
  have hcell (k : Loc) (hk : k ≠ group (label x)) :
      (w₁.pushItem (group (label x)) x).heap.cells[k]? = w₁.heap.cells[k]? := by
    simp [World.pushItem, Array.getElem?_modify, hk.symm]
  obtain ⟨hfresh, hitems⟩ := h.groups _ hold
  refine ⟨{ h.grows with setting := ⟨fun k c hc => ?_, ?_⟩ }, fun t ht => ?_⟩
  · rw [hcell k fun heq => by rw [heq, hfresh] at hc; cases hc]
    exact h.grows.cell hc
  · exact congrArg (fun s : Setting => { s with heap := (w₁.pushItem (group (label x)) x).heap })
      h.grows.setting.rest
  · rw [having_append]
    by_cases heq : label x = t
    · subst heq
      rw [if_pos rfl]
      exact ⟨hfresh, by simp [World.pushItem, Array.getElem?_modify, Cell.mapItems, hitems]⟩
    · have ht : t ∈ done.map label := by simpa [Ne.symm heq] using ht
      rw [if_neg heq, List.append_nil, hcell _ fun hg => heq (h.apart ht hold hg).symm]
      exact h.groups t ht

end Gathered

section

variable {call : Caller} {f : Value}

/-- A round adds an item to its group. -/
theorem groupStep_gathers (h : Labels call f label xs w) (hx : x ∈ xs)
    (hdone : Gathered label w done group w₁) (i : Nat) :
    ∃ group' w₂, Library.groupStep call f i x (keyed (done.map label) (.array ∘ group)) w₁ =
        .ok (.yield (keyed ((done ++ [x]).map label) (.array ∘ group'))) w₂ ∧
      Gathered label w (done ++ [x]) group' w₂ := by
  obtain ⟨v, w₂, hcall, hw₂, htext⟩ := h w₁ hdone.grows x hx
  have hdone := hdone.mono hw₂
  have hlabel : (liftM (text v) : Action String) w₂ = .ok (label x) w₂ := Routine.perform_ok htext
  have hfound := get?_keyed (done.map label) (.array ∘ group) (label x)
  simp only [Library.groupStep, bind_ok hcall, bind_ok hlabel]
  by_cases hold : label x ∈ done.map label
  · rw [if_pos hold] at hfound
    refine ⟨group, w₂.pushItem (group (label x)) x, ?_, hdone.added hold⟩
    rw [hfound, List.map_append, List.map_singleton, keyed_of_mem hold]
    exact bind_ok (push_ok (hdone.groups _ hold).2 x)
  · rw [if_neg hold] at hfound
    refine ⟨_, _, ?_, hdone.begun hold⟩
    have hnew := put_keyed (done.map label) (.array ∘ group) (label x) (.array w₂.heap.cells.size)
    rw [← Function.comp_update] at hnew
    rw [hfound, List.map_append, List.map_singleton, ← hnew]
    rfl

/-- Grouping makes one new array for each key. -/
theorem groupBy_ok (h : Labels call f label xs w)
    (hl : w.heap.cells[l]? = some (.array xs.toArray)) :
    ∃ k group w₁, Library.groupBy call (.array l) f w = .ok (.object k) w₁ ∧
      w.heap.cells[k]? = none ∧
      w₁.heap.cells[k]? = some (.object (keyed (xs.map label) (.array ∘ group))) ∧
      Gathered label w xs group w₁ := by
  have hloop : ∃ acc w₁, foldItems l [] (Library.groupStep call f) w = .ok acc w₁ ∧
      ∃ group, acc = keyed (xs.map label) (.array ∘ group) ∧ Gathered label w xs group w₁ := by
    refine foldItems_ends (I := fun done acc w₁ => ∃ group, acc = keyed (done.map label)
      (.array ∘ group) ∧
      Gathered label w done group w₁) hl ⟨fun _ => 0, rfl, .refl w, by simp⟩ ?_ ?_
      fun _ _ h => h
    · rintro _ _ _ ⟨_, -, h⟩
      exact h.grows
    · rintro done x rest hxs _ w₁ ⟨group, rfl, hdone⟩
      have hx : x ∈ xs := by simp [← hxs]
      obtain ⟨group', w₂, hround, hnext⟩ := groupStep_gathers h hx hdone done.length
      exact ⟨_, w₂, .inl ⟨hround, group', rfl, hnext⟩⟩
  obtain ⟨_, w₁, hrun, group, rfl, hall⟩ := hloop
  have hnew := World.Extends.pushCell w₁ (.object (keyed (xs.map label) (.array ∘ group)))
  exact ⟨_, group, _, (bind_ok hrun).trans rfl, hall.grows.fresh w₁.getElem?_size,
    w₁.pushCell_new _, hall.mono hnew⟩

/-- What a function gives for each of the items, without effect, is a text. -/
def Names (call : Caller) (f : Value) (label : Value → String) (xs : List Value) (w : World) :
    Prop :=
  ∀ w₁, w.Extends w₁ → ∀ x ∈ xs, ∃ w₂, call f [x] w₁ = .ok (.text (label x)) w₂ ∧ w₁.Extends w₂

/-- The counts of texts, in the order in which these first occur. -/
def tally (ts : List String) : Entries :=
  keyed ts fun t => .int (ts.count t)

theorem tally_append (ts : List String) (t : String) :
    (tally ts).put (.text t)
      (.int (((((tally ts).get? (.text t)).getD (.int 0)).whole?.getD 0) + 1)) =
        tally (ts ++ [t]) := by
  have hcount : (((tally ts).get? (.text t)).getD (.int 0)).whole?.getD 0 = ts.count t := by
    rw [tally, get?_keyed]
    by_cases h : t ∈ ts
    · rw [if_pos h]
      rfl
    · rw [if_neg h, List.count_eq_zero_of_not_mem h]
      rfl
  rw [hcount, tally, put_keyed, tally]
  congr 1
  funext u
  by_cases h : u = t
  · simp [h]
  · simp [Function.update_of_ne h, Ne.symm h]

/-- Counting by texts has the number of items with each of them. -/
theorem countBy_ok (h : Names call f label xs w)
    (hl : w.heap.cells[l]? = some (.array xs.toArray)) :
    ∃ k w₁, Library.countBy call (.array l) f w = .ok (.object k) w₁ ∧ w.Extends w₁ ∧
      w.heap.cells[k]? = none ∧ w₁.heap.cells[k]? = some (.object (tally (xs.map label))) := by
  have hloop : ∃ acc w₁, foldItems l [] (Library.countStep call f) w = .ok acc w₁ ∧
      acc = tally (xs.map label) ∧ w.Extends w₁ := by
    refine foldItems_ends (I := fun done acc w₁ => acc = tally (done.map label) ∧ w.Extends w₁) hl
      ⟨rfl, .refl w⟩ (fun _ _ _ h => h.2) ?_ fun _ _ h => h
    rintro done x rest hxs _ w₁ ⟨rfl, hw₁⟩
    obtain ⟨w₂, hcall, hw₂⟩ := h w₁ hw₁ x (by simp [← hxs])
    refine ⟨_, w₂, .inl ⟨(bind_ok hcall).trans rfl, ?_, hw₁.trans hw₂⟩⟩
    rw [List.map_append, List.map_singleton]
    exact tally_append _ _
  obtain ⟨_, w₁, hrun, rfl, hgrows⟩ := hloop
  exact ⟨_, _, (bind_ok hrun).trans rfl, hgrows.trans (.pushCell w₁ _),
    hgrows.fresh w₁.getElem?_size, w₁.pushCell_new _⟩

end

/-! ## The groups make up the array -/

theorem length_having (label : Value → String) (xs : List Value) (t : String) :
    (having label t xs).length = (xs.map label).count t := by
  rw [having, ← List.countP_eq_length_filter, List.count, List.countP_map]
  congr 1

/-- An array is grouped without loss, and is left as it is. What `groupBy` makes of a function
without effect has the distinct texts that the function gives as its keys, in the order in which
they first occur. At each of them is a new array of the items that have this key, in their order, at
least one. The sizes of the groups add up to the size of the array. And if all the function gives
are texts, then `countBy` has the same keys, with the sizes of the groups. -/
theorem groups_make_up_the_array (d : Nat) (f : Value)
    (hl : w.heap.cells[l]? = some (.array xs.toArray)) (h : Labels (apply d) f label xs w) :
    (∃ k, ∃ group : String → Loc, ∃ w₁,
      apply (d + 1) (.native (.core .groupBy)) [.array l, f] w = .ok (.object k) w₁ ∧ w.Extends w₁ ∧
      w.heap.cells[k]? = none ∧
      w₁.heap.cells[k]? =
        some (.object ((firsts (xs.map label)).map fun t => (.text t, .array (group t)))) ∧
      ∀ t ∈ firsts (xs.map label), having label t xs ≠ [] ∧ w.heap.cells[group t]? = none ∧
        w₁.heap.cells[group t]? = some (.array (having label t xs).toArray)) ∧
    ((firsts (xs.map label)).map fun t => (having label t xs).length).sum = xs.length ∧
    (Names (apply d) f label xs w →
      ∃ k w₁, apply (d + 1) (.native (.core .countBy)) [.array l, f] w = .ok (.object k) w₁ ∧
        w.Extends w₁ ∧ w.heap.cells[k]? = none ∧
        w₁.heap.cells[k]? = some (.object ((firsts (xs.map label)).map fun t =>
          (.text t, .int (having label t xs).length)))) := by
  refine ⟨?_, ?_, fun hnames => ?_⟩
  · obtain ⟨k, group, w₁, hrun, hk, hobject, hall⟩ := groupBy_ok h hl
    refine ⟨k, group, w₁, apply_core_eq rfl hrun, hall.grows, hk, hobject, fun t ht => ?_⟩
    rw [mem_firsts] at ht
    refine ⟨fun hnone => ?_, hall.groups t ht⟩
    have hcount := length_having label xs t
    rw [hnone] at hcount
    exact absurd ht (List.count_eq_zero.1 hcount.symm)
  · simp only [length_having]
    rw [sum_count_firsts, List.length_map]
  · obtain ⟨k, w₁, hrun, hgrows, hk, hcounts⟩ := countBy_ok hnames hl
    refine ⟨k, w₁, apply_core_eq rfl hrun, hgrows, hk, ?_⟩
    simp only [length_having]
    exact hcounts

/-- Three texts, two of which are the same. -/
def threeTexts : List Value := [.text "b", .text "a", .text "b"]

/-- Texts grouped by themselves: the one that occurs twice comes first. -/
theorem threeTexts_grouped :
    ∃ (w : World) (label : Value → String), Labels (apply 8) (.native (.core .identity)) label
      threeTexts w ∧
      (∃ k, ∃ group : String → Loc, ∃ w₁,
        apply 9 (.native (.core .groupBy)) [.array 0, .native (.core .identity)] w =
          .ok (.object k) w₁ ∧
        w₁.heap.cells[k]? =
          some (.object [(.text "b", .array (group "b")), (.text "a", .array (group "a"))]) ∧
        w₁.heap.cells[group "b"]? = some (.array #[.text "b", .text "b"])) ∧
      ∃ k w₁, apply 9 (.native (.core .countBy)) [.array 0, .native (.core .identity)] w =
        .ok (.object k) w₁ ∧
        w₁.heap.cells[k]? = some (.object [(.text "b", .int 2), (.text "a", .int 1)]) := by
  let w : World := { heap := { cells := #[.array threeTexts.toArray] } }
  let label (v : Value) : String := if v.sameKey (.text "b") then "b" else "a"
  have hnames : Names (apply 8) (.native (.core .identity)) label threeTexts w := by
    intro w₁ _ x hx
    have hlabel : x = .text (label x) := by
      simp only [threeTexts, List.mem_cons, List.not_mem_nil, or_false] at hx
      rcases hx with rfl | rfl | rfl <;> rfl
    exact ⟨w₁, (apply_identity 7 x w₁).trans (by rw [← hlabel]), .refl w₁⟩
  have h : Labels (apply 8) (.native (.core .identity)) label threeTexts w := by
    intro w₁ hw₁ x hx
    obtain ⟨w₂, hcall, hw₂⟩ := hnames w₁ hw₁ x hx
    exact ⟨_, w₂, hcall, hw₂, rfl⟩
  obtain ⟨⟨k, group, w₁, hrun, -, -, hk, hgroups⟩, -, hcounts⟩ :=
    groups_make_up_the_array (l := 0) 8 (.native (.core .identity)) rfl h
  obtain ⟨j, w₂, hcount, -, -, hj⟩ := hcounts hnames
  obtain ⟨-, -, hb⟩ := hgroups "b" (by decide)
  exact ⟨w, label, h, ⟨k, group, w₁, hrun, hk, hb⟩, j, w₂, hcount, hj⟩

end ScriptLang
