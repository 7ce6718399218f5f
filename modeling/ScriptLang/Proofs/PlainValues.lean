import ScriptLang.Proofs.PlainData

/-!
# Operations on values keep the heap in order

The routines that show, compare, convert and combine values, take values out of containers and put
them in, fill in templates and read documents. Each adds cells and changes what arrays hold, nothing
else of the heap, and gives plain values for plain ones.
-/

namespace ScriptLang

open ScriptLang.Action ScriptLang.Policy

variable {strict : Bool}

/-! ## Lists of values -/

theorem Value.fits_of_mem {xs ys : List Value} (h : ∀ x ∈ xs, x.Fits strict) (hsub : ys ⊆ xs) :
    ∀ y ∈ ys, y.Fits strict :=
  fun y hy => h y (hsub hy)

variable {xs : List (Value × Value)} {α : Type} {i : Nat}

theorem sliceList_subset (xs : List α) (start stop : Int) : sliceList xs start stop ⊆ xs :=
  fun _ hx => List.mem_of_mem_drop (List.mem_of_mem_take hx)

theorem mem_of_mem_extract {xs : Array α} {j : Nat} {x : α} (hx : x ∈ xs.extract i j) : x ∈ xs := by
  rw [Array.mem_def, Array.toList_extract, List.extract_eq_take_drop] at hx
  exact Array.mem_def.2 (List.mem_of_mem_drop (List.mem_of_mem_take hx))

theorem mem_of_mem_pop {xs : Array α} {x : α} (hx : x ∈ xs.pop) : x ∈ xs := by
  rw [Array.mem_def, Array.toList_pop] at hx
  exact Array.mem_def.2 (List.dropLast_subset _ hx)

theorem mem_of_mem_erase {xs : Array α} {x : α} (hx : x ∈ xs.eraseIdxIfInBounds i) : x ∈ xs := by
  unfold Array.eraseIdxIfInBounds at hx
  split at hx
  · exact Array.mem_of_mem_eraseIdx hx
  · exact hx

theorem mem_or_eq_of_mem_insert {xs : Array α} {x y : α} (hx : x ∈ xs.insertIdxIfInBounds i y) :
    x ∈ xs ∨ x = y := by
  unfold Array.insertIdxIfInBounds at hx
  split at hx
  · exact (Array.mem_insertIdx.1 hx).symm
  · exact .inl hx

theorem exists_ok_of_bind {β : Type} {x : Except Fault α} {f : α → Except Fault β} {b : β}
    (h : x >>= f = .ok b) : ∃ a, x = .ok a ∧ f a = .ok b := by
  cases x with
  | error e => contradiction
  | ok a => exact ⟨a, rfl, h⟩

variable {less : Value → Value → Except Fault Bool}

theorem splitRun_append {falling : Bool} {last : Value} {run rest : List (Value × Value)}
    (h : splitRun less falling last xs = .ok (run, rest)) : run ++ rest = xs := by
  induction xs generalizing last run rest with
  | nil =>
    cases h
    rfl
  | cons x xs ih =>
    rw [splitRun] at h
    obtain ⟨b, -, h⟩ := exists_ok_of_bind h
    split at h
    · obtain ⟨⟨run', rest'⟩, hrun, h⟩ := exists_ok_of_bind h
      cases h
      rw [List.cons_append, ih hrun]
    · cases h
      rfl

theorem mem_of_mem_insertAll {run out : Array (Value × Value)} (h : insertAll less run xs = .ok out)
    {y : Value × Value} (hy : y ∈ out) : y ∈ run ∨ y ∈ xs := by
  induction xs generalizing run with
  | nil =>
    cases h
    exact .inl hy
  | cons x xs ih =>
    rw [insertAll] at h
    obtain ⟨i, -, h⟩ := exists_ok_of_bind h
    rcases ih h with hrun | hxs
    · rcases mem_or_eq_of_mem_insert hrun with hrun | rfl
      · exact .inl hrun
      · exact .inr List.mem_cons_self
    · exact .inr (List.mem_cons_of_mem _ hxs)

theorem sortByKeys_subset {ys : List (Value × Value)} (h : sortByKeys less xs = .ok ys) :
    ys ⊆ xs := by
  unfold sortByKeys at h
  split at h
  · cases h
    exact List.Subset.refl _
  · cases h
    exact List.Subset.refl _
  · next x y rest =>
    obtain ⟨falling, -, h⟩ := exists_ok_of_bind h
    obtain ⟨⟨run, rest'⟩, hrun, h⟩ := exists_ok_of_bind h
    obtain ⟨out, hout, h⟩ := exists_ok_of_bind h
    cases h
    have hparts := splitRun_append hrun
    subst hparts
    intro z hz
    rcases mem_of_mem_insertAll hout (Array.mem_toList_iff.1 hz) with hz | hz
    · have hstart : z ∈ x :: y :: run := by
        cases falling with
        | false => simpa using hz
        | true => simpa [or_comm, or_assoc, or_left_comm] using hz
      exact List.subset_append_left (x :: y :: run) rest' hstart
    · exact List.subset_append_right (x :: y :: run) rest' hz

/-! ## Texts, comparisons and conversions -/

namespace Action

instance printValues_keeps (vs : List Value) : Keeps strict (printValues vs) := by
  fun_induction printValues vs <;> exact Keeps.parts

instance ordered_keeps (op : OrderOp) (v w : Value) : Keeps strict (ordered op v w) := by
  unfold ordered
  exact Keeps.parts

instance number_keeps (n : Num) : Gives strict (number n) := by
  unfold number
  exact Keeps.parts

instance toInt_keeps (v : Value) : Keeps strict (toInt v) := .ofExcept_any _

instance checkSize_keeps (size : Nat) : Keeps strict (checkSize size) := by
  unfold checkSize
  exact Keeps.parts

/-! ## Arithmetic -/

section

variable {v w : Value} [h : Fact (v.Fits strict)] [k : Fact (w.Fits strict)]

theorem repeatedItems_keeps {α : Type} (n : Nat) (xs : List α) :
    Keeps strict (repeatedItems n xs) (· ⊆ xs) := by
  refine (checkSize_keeps _).seq <| .pure fun x hx => ?_
  split at hx
  · contradiction
  · rw [List.mem_flatten] at hx
    obtain ⟨ys, hys, hx⟩ := hx
    rw [List.eq_of_mem_replicate hys] at hx
    exact hx

instance repeated_keeps (times : Value) : Gives strict (repeated v times) := by
  refine (Ensures.ofExcept_any _).bind fun n _ => ?_
  split
  · exact .ite Keeps.parts ((repeatedItems_keeps _ _).seq <| .leaf rfl)
  · exact (repeatedItems_keeps _ _).seq <| .pure h.out
  · exact (repeatedItems_keeps _ _).seq <| .pure h.out
  · refine (Ensures.items _).bind fun xs hxs => (repeatedItems_keeps n xs.toList).bind
      fun ys hys => ?_
    exact .arrayOf (Value.fits_of_mem (by simpa using hxs) hys)
  · exact .leaf rfl

instance plus_keeps (w : Value) : Gives strict (add.plus v w) := by
  unfold add.plus
  split
  -- a tuple fits where another one does, and bytes likewise
  case h_3 | h_5 => exact .pure h.out
  all_goals exact Keeps.parts

instance add_keeps (w : Value) : Gives strict (add v w) := by
  unfold add
  exact Keeps.parts

instance mul_keeps : Gives strict (mul v w) := by
  unfold mul
  exact Keeps.parts

end

instance sub_keeps (v w : Value) : Gives strict (sub v w) := by
  unfold sub
  exact Keeps.parts

instance div_keeps (v w : Value) : Gives strict (div v w) := by
  unfold div
  exact Keeps.parts

instance floorDiv_keeps (v w : Value) : Gives strict (floorDiv v w) := by
  unfold floorDiv
  exact Keeps.parts

instance neg_keeps (v : Value) : Gives strict (neg v) := by
  unfold neg
  exact Keeps.parts

/-! ## Items -/

instance length_keeps (v : Value) : Keeps strict (length v) := by
  unfold length
  exact Keeps.parts

instance iterate_keeps {v : Value} [h : Fact (v.Fits strict)] :
    Keeps strict (iterate v) fun xs => ∀ x ∈ xs, x.Fits strict := by
  unfold iterate
  split
  · exact Keeps.parts
  · refine .pure fun x hx => ?_
    obtain ⟨b, -, rfl⟩ := List.mem_map.1 hx
    exact fun _ => rfl
  · -- a plain value is no tuple
    exact .pure fun x _ hstrict => nomatch h.out hstrict
  · exact Keeps.parts
  · exact (Ensures.entries _).bind fun es hes => .pure hes.keys
  · exact .fail _

/-- What is taken from a container fits if the container does. -/
instance (priority := low) getItem_of (container key : Value) :
    Keeps strict (getItem container key) fun v => container.Fits strict → v.Fits strict := by
  unfold getItem
  split
  · exact Still.keeps.seq <| .pure fun _ _ => rfl
  · exact Still.keeps.seq <| .pure fun _ _ => rfl
  · exact Still.keeps.seq <| .pure fun h hstrict => nomatch h hstrict
  · refine (Ensures.items _).bind fun xs hxs => Still.keeps.bind fun i _ =>
      .pure fun _ => ?_
    rw [Array.getD_eq_getD_getElem?, ← Array.getElem?_toList, ← List.getD_eq_getElem?_getD]
    exact Value.fits_getD (by simpa using hxs) i
  · refine Still.keeps.seq <| (Ensures.entries _).bind fun es hes => ?_
    split
    · next v hv => exact .pure fun _ => hes.get? hv
    · exact Still.keeps.seq <| .fail _
  · exact .fail _
  · exact .fail _

instance getItem_keeps {container : Value} [h : Fact (container.Fits strict)] (key : Value) :
    Gives strict (getItem container key) :=
  (getItem_of container key).mono fun _ hv => hv h.out

theorem setItem_keeps {container key v : Value} (hv : v.Fits strict)
    (hkey : strict = true → ∀ l, container ≠ .object l) :
    Keeps strict (setItem container key v) := by
  unfold setItem
  split
  · refine (Ensures.items _).bind fun xs _ => ?_
    split
    · exact .fail _
    · refine (Ensures.ofExcept_any _).bind fun n _ => ?_
      split
      · refine .modifyItems fun ys hys x hx => ?_
        exact (Array.mem_or_eq_of_mem_setIfInBounds hx).elim (hys x) fun heq => heq ▸ hv
      · exact .fail _
  · refine Still.keeps.seq <| .modifyEntries fun _ _ hstrict => ?_
    exact absurd rfl (hkey hstrict _)
  · exact .fail _

instance slice_keeps {container : Value} [h : Fact (container.Fits strict)]
    (start stop : Option Int) : Gives strict (slice container start stop) := by
  unfold slice
  dsimp only
  split
  case h_2 | h_3 => exact .pure h.out
  case h_4 =>
    refine (Ensures.items _).bind fun xs hxs => .newArray fun x hx => ?_
    exact hxs x (mem_of_mem_extract hx)
  all_goals exact Keeps.parts

instance fieldOr_keeps (l : Loc) (key : Value) {other : Value} [h : Fact (other.Fits strict)] :
    Gives strict (fieldOr l key other) := by
  refine Still.keeps.seq <| (Ensures.entries _).bind fun es hes => .pure ?_
  cases hv : es.get? key with
  | none => exact h.out
  | some v => exact hes.get? hv

/-! ## Templates -/

instance nextArg_keeps (args : TemplateArgs) : Keeps strict (nextArg args) := by
  unfold nextArg
  exact Keeps.parts

instance directiveNumber_keeps (field : DirectiveField) (args : TemplateArgs) (cs : List Char) :
    Keeps strict (directiveNumber field args cs) := by
  unfold directiveNumber
  exact Keeps.parts

instance directiveText_keeps (d : Directive) (conversion : Char) (index : Nat) (v : Value) :
    Keeps strict (directiveText d conversion index v) := by
  unfold directiveText directiveChar directiveWhole directiveWhole.refuse
  exact Keeps.parts

/-- Where the template gets its arguments from does not matter: they end in a text. -/
instance directiveArgs_keeps (args : TemplateArgs) (cs : List Char) :
    Keeps strict (directiveArgs args cs) := by
  unfold directiveArgs
  exact Keeps.parts

instance directivePrecision_keeps (d : Directive) (args : TemplateArgs) (cs : List Char) :
    Keeps strict (directivePrecision d args cs) := by
  unfold directivePrecision
  exact Keeps.parts

instance fillFrom_keeps (total fuel : Nat) (args : TemplateArgs) (cs : List Char) :
    Keeps strict (fillFrom total fuel args cs) := by
  induction fuel generalizing args cs <;> rw [fillFrom] <;> exact Keeps.parts

instance mod_keeps (v w : Value) : Gives strict (mod v w) := by
  unfold mod fill
  exact Keeps.parts

/-! ## Documents -/

mutual

theorem ofDocument_keeps : ∀ d : Json, Gives strict (ofDocument d)
  | .null | .bool _ | .whole _ | .text _ => by
    rw [ofDocument]
    exact .leaf rfl
  | .real x => by
    rw [ofDocument]
    exact .real x
  | .list items => by
    rw [ofDocument]
    exact (ofItems_keeps items).bind fun xs hxs => .newArray (by simpa using hxs)
  | .fields fs => by
    rw [ofDocument]
    exact (ofFields_keeps fs [] fun _ => .nil).bind fun es hes => .newObject hes

theorem ofItems_keeps : ∀ ds :
    List Json, Keeps strict (ofItems ds) fun xs => ∀ x ∈ xs, x.Fits strict
  | [] => by
    rw [ofItems]
    exact .pure (by simp)
  | d :: ds => by
    rw [ofItems]
    refine (ofDocument_keeps d).bind fun x hx => (ofItems_keeps ds).bind fun xs hxs => .pure ?_
    exact List.forall_mem_cons.2 ⟨hx, hxs⟩

theorem ofFields_keeps : ∀ (fs : List (String × Json)) (acc : Entries), Entries.Fits strict acc →
    Keeps strict (ofFields fs acc) (Entries.Fits strict)
  | [], acc, hacc => by
    rw [ofFields]
    exact .pure hacc
  | (k, d) :: fs, acc, hacc => by
    rw [ofFields]
    exact (ofDocument_keeps d).bind fun x hx => ofFields_keeps fs _ (hacc.put k hx)

end

instance (d : Json) : Gives strict (ofDocument d) := ofDocument_keeps d

end Action

end ScriptLang
