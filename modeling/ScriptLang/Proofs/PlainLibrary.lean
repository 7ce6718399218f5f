import ScriptLang.Proofs.PlainValues

/-!
# The library keeps the heap in order

The functions that every program has and the methods of plain values, as far as they call no
function they are given. Each adds cells and changes what arrays and objects hold, nothing else of
the heap, and gives plain values for plain ones; only the raw functions do not.
-/

namespace ScriptLang.Library

open ScriptLang.Action ScriptLang.Policy

variable {strict : Bool}

/-! ## Arrays -/

instance noAttribute_keeps {α : Type} (v : Value) (name : String) :
    Keeps strict (noAttribute v name : Routine α) fun _ => False := by
  unfold noAttribute
  exact Keeps.parts

section

variable {arr v w : Value} [h : Fact (arr.Fits strict)] [k : Fact (v.Fits strict)]
  [j : Fact (w.Fits strict)]

instance push_keeps : Gives strict (push arr v) := by
  unfold push
  split
  · exact (Ensures.modifyItems fun _ hxs => Value.fits_push hxs k.out).seq <| .pure h.out
  · exact .pure h.out

instance pop_keeps (arr : Value) : Gives strict (pop arr) := by
  unfold pop
  split
  · refine (Ensures.items _).bind fun xs hxs => ?_
    refine (Ensures.modifyItems fun ys hys y hy => ?_).seq <| .pure ?_
    · exact hys y (mem_of_mem_pop hy)
    · cases hlast : xs.back? with
      | none => exact fun _ => rfl
      | some x => exact hxs x (Array.mem_of_back? hlast)
  · exact .leaf rfl

instance shift_keeps (arr : Value) : Gives strict (shift arr) := by
  unfold shift
  split
  · refine (Ensures.items _).bind fun xs hxs => ?_
    refine (Ensures.modifyItems fun ys hys y hy => ?_).seq <| .pure ?_
    · exact hys y (mem_of_mem_extract hy)
    · cases hfirst : xs[0]? with
      | none => exact fun _ => rfl
      | some x => exact hxs x (Array.mem_of_getElem? hfirst)
  · exact .leaf rfl

instance unshift_keeps : Gives strict (unshift arr v) := by
  unfold unshift
  split
  · refine (Ensures.modifyItems fun xs hxs x hx => ?_).seq <| .pure h.out
    rcases Array.mem_append.1 hx with hx | hx
    · rw [Array.mem_singleton] at hx
      exact hx ▸ k.out
    · exact hxs x hx
  · exact .pure h.out

theorem sorted_keeps (xs : List Value) : Keeps strict (sorted xs) (· ⊆ xs) := by
  refine Ensures.heap.bind fun s _ => (Ensures.ofExcept fun ps hps => ?_).bind
    fun ps hps => .pure hps
  intro y hy
  obtain ⟨p, hp, rfl⟩ := List.mem_map.1 hy
  obtain ⟨x, hx, rfl⟩ := List.mem_map.1 (sortByKeys_subset hps hp)
  exact hx

instance sort_keeps : Gives strict (sort arr) := by
  unfold sort
  split
  · refine (Ensures.items _).bind fun xs hxs => (sorted_keeps xs.toList).bind fun ys hys => ?_
    exact .arrayOf (Value.fits_of_mem (by simpa using hxs) hys)
  · exact .pure h.out

instance join_keeps (arr : Value) : Gives strict (join arr v) := by
  unfold join
  split
  · split
    · exact Keeps.parts
    · refine (Ensures.items _).bind fun xs _ => ?_
      split
      · exact .pure k.out
      · exact .fail _
    · exact Keeps.parts
  · exact Keeps.parts

instance total_keeps (xs : List Value) : Gives strict (total xs v) :=
  .foldlM k.out fun _ _ _ hacc => plus_keeps (h := ⟨hacc⟩) _

theorem extreme_keeps (op : OrderOp) {best : Value} {xs : List Value} (hbest : best.Fits strict)
    (hxs : ∀ x ∈ xs, x.Fits strict) : Gives strict (extreme op best xs) := by
  induction xs generalizing best with
  | nil => exact .pure hbest
  | cons x xs ih =>
    rw [List.forall_mem_cons] at hxs
    exact (ordered_keeps op x best).seq <| .ite (ih hxs.1 hxs.2) (ih hbest hxs.2)

instance (op : OrderOp) {xs : List Value} [hxs : Fact (∀ x ∈ xs, x.Fits strict)] :
    Gives strict (extreme op v xs) :=
  extreme_keeps op k.out hxs.out

instance extremeItem_keeps (op : OrderOp) (arr : Value) : Gives strict (extremeItem op arr) := by
  unfold extremeItem
  split
  · refine (Ensures.items _).bind fun xs hxs => ?_
    split
    · exact .leaf rfl
    · next x ys heq =>
      have hall : ∀ y ∈ x :: ys, y.Fits strict := by
        rw [← heq]
        simpa using hxs
      obtain ⟨hx, hys⟩ := List.forall_mem_cons.1 hall
      exact extreme_keeps op hx hys
  · exact .leaf rfl

instance rangeArray_keeps (start stop step : Int) : Gives strict (rangeArray start stop step) := by
  unfold rangeArray
  refine Still.keeps.seq <| (checkSize_keeps _).seq <| .arrayOf ?_
  intro x hx
  obtain ⟨n, -, rfl⟩ := List.mem_map.1 hx
  exact fun _ => rfl

theorem opensAt_keeps (depth : Value) (level : Nat) :
    Keeps strict (opensAt depth level) fun _ => True := by
  unfold opensAt
  split
  · exact .pure trivial
  · exact ordered_keeps _ _ _

theorem flattenInto_keeps (depth : Value) (fuel level : Nat) {xs acc : List Value}
    (hxs : ∀ x ∈ xs, x.Fits strict) (hacc : ∀ x ∈ acc, x.Fits strict) :
    Keeps strict (flattenInto depth fuel level xs acc) fun ys => ∀ y ∈ ys, y.Fits strict := by
  induction fuel generalizing level xs acc with
  | zero => exact .fail _
  | succ fuel ih =>
    rw [flattenInto]
    refine .foldlM hacc fun x hx acc hacc => ?_
    have kept : ∀ y ∈ x :: acc, y.Fits strict := List.forall_mem_cons.2 ⟨hxs x hx, hacc⟩
    -- an array that is opened is gone over one level down
    unfold flattenStep
    split
    · refine (opensAt_keeps depth level).seq <| .ite ((Ensures.items _).bind fun ys hys => ?_)
        (.pure kept)
      exact ih _ (by simpa using hys) hacc
    · exact .pure kept

instance flatten_keeps (depth : Value) : Gives strict (flatten arr depth) := by
  refine iterate_keeps.bind fun xs hxs => (flattenInto_keeps depth _ _ hxs (by simp)).bind
    fun ys hys => ?_
  exact .arrayOf (by simpa using hys)

instance chunk_keeps (size : Value) : Gives strict (chunk arr size) := by
  refine (length_keeps _).seq <| (Ensures.ofExcept_any _).seq <| .ite (.fail _) ?_
  exact (Ensures.mapM fun _ _ => Action.slice_keeps _ _).bind fun _ hps => .arrayOf hps

instance zip_keeps (args : List Value) : Keeps false (zip args) (Value.Fits false) :=
  (Ensures.mapM fun _ _ => iterate_keeps).seq <| .arrayOf fun _ _ => Value.fits_loose _

theorem foldlM_distinct_subset {s : Heap} {xs seen out : List Value}
    (h : xs.foldlM (fun (seen : List Value) x => do
      if ← s.memberOf x seen then return seen else return x :: seen) seen = .ok out) :
    out ⊆ seen ++ xs := by
  induction xs generalizing seen with
  | nil =>
    cases h
    simp
  | cons x xs ih =>
    rw [List.foldlM_cons] at h
    obtain ⟨seen', hstep, h⟩ := exists_ok_of_bind h
    obtain ⟨b, -, hstep⟩ := exists_ok_of_bind hstep
    have hseen : seen' ⊆ seen ++ [x] := by
      cases b with
      | true =>
        cases hstep
        exact List.subset_append_left _ _
      | false =>
        cases hstep
        exact List.cons_subset.2 ⟨by simp, List.subset_append_left _ _⟩
    rw [List.append_cons]
    exact List.Subset.trans (ih h) (List.append_subset.2
      ⟨List.Subset.trans hseen (List.subset_append_left _ _), List.subset_append_right _ _⟩)

theorem distinct_keeps (xs : List Value) : Keeps strict (distinct xs) (· ⊆ xs) := by
  refine Ensures.heap.bind fun s _ => (Ensures.ofExcept fun out hout => ?_).bind
    fun out hout => .pure hout
  intro x hx
  simpa using foldlM_distinct_subset hout (List.mem_reverse.1 hx)

instance unique_keeps : Gives strict (unique arr) :=
  iterate_keeps.bind fun xs hxs => (distinct_keeps xs).bind fun _ hys =>
    .arrayOf (Value.fits_of_mem hxs hys)

instance compact_keeps : Gives strict (compact arr) :=
  iterate_keeps.bind fun _ hxs => Ensures.heap.seq <|
    .arrayOf (Value.fits_of_mem hxs List.filter_sublist.subset)

instance membersOf_keeps (wanted : Bool) (other : Value) :
    Gives strict (membersOf wanted arr other) :=
  iterate_keeps.bind fun _ hxs => (Ensures.filterM fun _ _ => Keeps.parts).bind fun _ hys =>
    .arrayOf (Value.fits_of_mem hxs hys.subset)

/-! ## Numbers -/

instance randomBelow_keeps (n : Nat) : Keeps strict (randomBelow n) := by
  unfold randomBelow
  exact Keeps.parts

instance randomBound_keeps (what : String) (v : Value) : Keeps strict (randomBound what v) := by
  unfold randomBound
  exact Keeps.parts

instance randomInt_keeps (low : Value) : Gives strict (randomInt low v) := by
  unfold randomInt
  exact Keeps.parts

instance sleepLength_keeps (v : Value) : Keeps strict (sleep.sleepLength v) := by
  unfold sleep.sleepLength
  exact Keeps.parts

instance sleep_keeps (seconds : Value) : Gives strict (sleep seconds) := by
  have wake (x : Float) : Gives strict (do
      modify fun w : Setting => { w with clock := w.clock + x }
      return .null) :=
    .seq (.aside fun _ => rfl) <| .leaf rfl
  refine (sleepLength_keeps _).bind fun x _ => .get_bind fun s => ?_
  split
  · exact .of_ensures (.throw trivial)
  · exact .set_bind id ⟨.refl _, rfl⟩ (wake x)
  · exact .set_bind id ⟨.refl _, rfl⟩ (wake x)
  · exact .of_ensures (wake x)

/-! ## Texts -/

instance splitText_keeps (s : String) (separator : Value) :
    Keeps strict (splitText s separator) := by
  unfold splitText
  exact Keeps.parts

instance replaceText_keeps (s : String) (old new : Value) :
    Gives strict (replaceText s old new) := by
  unfold replaceText
  exact Keeps.parts

instance hasAffix_any_keeps (word : String) (test : String → Bool) (ts : List Value) :
    Keeps strict (hasAffix.any word test ts) := by
  fun_induction hasAffix.any word test ts <;> exact Keeps.parts

instance hasAffix_keeps (word : String) (test : String → Bool) (affix : Value) :
    Keeps strict (hasAffix word test affix) := by
  unfold hasAffix
  exact Keeps.parts

instance countIn_keeps (s : String) (word : Value) : Gives strict (countIn s word) := by
  unfold countIn
  exact Keeps.parts

instance padWith_keeps (pad : Nat → Char → String → String) (v width fill : Value) :
    Gives strict (padWith pad v width fill) := by
  unfold padWith padding
  exact Keeps.parts

/-! ## Objects -/

instance keys_keeps (obj : Value) : Gives strict (keys obj) := by
  unfold keys
  split
  · exact (Ensures.entries _).bind fun _ hes => .arrayOf hes.keys
  · exact .arrayOf (by simp)

instance values_keeps (obj : Value) : Gives strict (values obj) := by
  unfold values
  split
  · exact (Ensures.entries _).bind fun _ hes => .arrayOf hes.values
  · exact .arrayOf (by simp)

instance merge_keeps (b : Value) : Gives strict (merge v b) := by
  unfold merge
  split
  · refine (Ensures.entries _).bind fun es hes => (Ensures.entries _).bind fun fs hfs => ?_
    exact .newObject fun hstrict => (hes hstrict).merge (hfs hstrict)
  · exact .pure k.out

/-- A key under which plain entries have a value is a text. -/
instance pick_keeps (obj : Value) : Gives strict (pick obj v) := by
  unfold pick
  split
  · refine iterate_keeps.bind fun ks _ => ?_
    refine (Ensures.foldlM (S := Entries.Fits strict) (fun _ => .nil)
      fun k _ acc hacc => ?_).bind fun es hes => .newObject hes
    refine Still.keeps.seq <| (Ensures.entries _).bind fun fs hfs => ?_
    split
    · next v hv =>
      refine .pure fun hstrict => ?_
      obtain ⟨e, he, hkey, rfl⟩ := Entries.mem_of_get? hv
      obtain ⟨key, htext⟩ := (hfs hstrict).texts e he
      rw [htext, Value.text_sameKey] at hkey
      rw [hkey]
      exact (hacc hstrict).put key ((hfs hstrict).values e he)
    · exact .pure hacc
  · exact .newObject fun _ => .nil

instance leaveOut_keeps (obj unwanted : Value) : Gives strict (leaveOut obj unwanted) := by
  unfold leaveOut
  split
  · refine (Ensures.entries _).bind fun es hes => ?_
    refine (Ensures.filterM fun e _ => ?_).bind fun fs hfs => ?_
    · exact Still.keeps.give
    · exact .newObject fun hstrict => (hes hstrict).sublist hfs
  · exact .newObject fun _ => .nil

instance entryPairs_keeps (obj : Value) : Gives strict (entryPairs obj) := by
  unfold entryPairs
  split
  · refine (Ensures.entries _).bind fun es hes => ?_
    refine (Ensures.mapM fun e he => ?_).bind fun _ hps => .arrayOf hps
    have hkey : e.1.Fits strict := hes.keys _ (List.mem_map_of_mem he)
    have hvalue : e.2.Fits strict := hes.values _ (List.mem_map_of_mem he)
    exact .arrayOf (by simpa using ⟨hkey, hvalue⟩)
  · exact .arrayOf (by simp)

instance fromEntries_keeps (pairs : Value) :
    Keeps false (fromEntries pairs) (Value.Fits false) := by
  refine iterate_keeps.bind fun xs _ => ?_
  refine (Ensures.foldlM (S := fun _ => True) trivial fun e _ acc _ => ?_).bind fun es _ =>
    .newObject nofun
  refine (length_keeps _).bind fun n _ => .ite (.pure trivial) ?_
  exact (getItem_of _ _).seq <| (getItem_of _ _).seq <| Still.keeps.give

/-! ## Samples and functions made from functions -/

instance lenientInt_keeps (v : Value) : Keeps strict (lenientInt v) := by
  unfold lenientInt
  exact Keeps.parts

instance pluck_keeps (arr key : Value) : Gives strict (pluck arr key) := by
  unfold pluck
  split
  · refine (Ensures.items _).bind fun xs _ => ?_
    refine (Ensures.filterMapM fun v _ => ?_).bind fun _ hys => .arrayOf hys
    split
    · refine Still.keeps.seq <| (Ensures.entries _).bind fun es hes => ?_
      exact .pure fun v hv => hes.get? hv
    · exact .pure (by simp)
  · exact .arrayOf (by simp)

theorem fits_arrayGetD {xs : Array Value} (hxs : ∀ x ∈ xs, x.Fits strict) (i : Nat) :
    (xs.getD i .null).Fits strict := by
  rw [Array.getD_eq_getD_getElem?, ← Array.getElem?_toList, ← List.getD_eq_getElem?_getD]
  exact Value.fits_getD (by simpa using hxs) i

theorem drawn_keeps (n : Nat) {xs : Array Value} (hxs : ∀ x ∈ xs, x.Fits strict) :
    Keeps strict (drawn n xs) fun ys => ∀ y ∈ ys, y.Fits strict := by
  induction n generalizing xs with
  | zero => exact .pure (by simp)
  | succ n ih =>
    refine .ite (.pure (by simp)) ((randomBelow_keeps _).bind fun i _ => ?_)
    refine (ih fun x hx => hxs x (mem_of_mem_erase hx)).bind fun rest hrest => .pure ?_
    exact List.forall_mem_cons.2 ⟨fits_arrayGetD hxs i, hrest⟩

instance sample_keeps (arr : Value) : Gives strict (sample arr v) := by
  refine Still.keeps.bind fun one _ => ?_
  split
  · refine (Ensures.items _).bind fun xs hxs => .ite Keeps.parts (.ite ?_ ?_)
    · exact (randomBelow_keeps _).bind fun i _ => .pure (fits_arrayGetD hxs i)
    · refine (extreme_keeps _ k.out Fact.out).seq <| (ordered_keeps _ _ _).seq <| .ite (.fail _) ?_
      exact (Ensures.ofExcept_any _).bind fun k _ => (drawn_keeps k hxs).bind fun _ hys =>
        .arrayOf hys
  · exact Keeps.parts

instance shuffle_keeps : Gives strict (shuffle arr) := by
  unfold shuffle
  split
  · exact (Ensures.items _).bind fun _ hxs => (drawn_keeps _ hxs).bind fun _ hys => .arrayOf hys
  · exact .pure h.out

end

instance arityOf_keeps (f : Value) : Keeps strict (arityOf f) := by
  unfold arityOf
  exact Keeps.parts

theorem newDerived_keeps {d : Derived} (hd : d.isPlain = d.parts.all Value.isPlain)
    (hparts : ∀ v ∈ d.parts, v.Fits strict) : Gives strict (newDerived d) := by
  refine .newDerived fun hstrict => ?_
  rw [hd, List.all_eq_true]
  exact fun v hv => hparts v hv hstrict

instance curry_keeps {f arity : Value} [h : Fact (f.Fits strict)] [k : Fact (arity.Fits strict)] :
    Gives strict (curry f arity) := by
  unfold curry
  split
  · refine (arityOf_keeps f).bind fun n _ => newDerived_keeps rfl ?_
    simpa [Derived.parts] using ⟨h.out, fun _ => rfl⟩
  · exact newDerived_keeps rfl (by simpa [Derived.parts] using ⟨h.out, k.out⟩)

instance mayRun_keeps (last : Float) (delay : Value) : Keeps strict (mayRun last delay) := by
  unfold mayRun
  exact Keeps.parts

/-! ## The functions every program has -/

instance ask_keeps (prompt : Value) : Gives strict (ask prompt) := by
  unfold ask
  exact Keeps.parts

section

variable {args : List Value}

/-- The functions that call no function they are given. Where data is to be plain, the raw ones are
not called. -/
theorem runPlain_keeps (f : CoreFn) (hargs : ∀ v ∈ args, v.Fits strict)
    (hf : strict = true → f.isRaw = false) : Gives strict (runPlain f args) := by
  have given (i : Nat) : Fact ((args.getD i .null).Fits strict) := ⟨Value.fits_getD hargs i⟩
  have loose : f.isRaw = true → strict = false := fun hraw =>
    Bool.eq_false_iff.2 fun hstrict => by simp [hf hstrict] at hraw
  unfold runPlain startsWith endsWith
  cases f with
  | zip | fromEntries =>
    obtain rfl := loose rfl
    exact Keeps.parts
  | debounce | throttle =>
    exact newDerived_keeps rfl (by simpa [Derived.parts] using ⟨(given 0).out, (given 1).out⟩)
  | memoize | constant | negate =>
    exact newDerived_keeps rfl (by simpa [Derived.parts] using (given 0).out)
  | once =>
    exact newDerived_keeps rfl (by simpa [Derived.parts] using ⟨(given 0).out, fun _ => rfl⟩)
  | compose | pipe => exact newDerived_keeps rfl hargs
  | _ =>
    dsimp only [slice, indexOf, position, sum, avg, range, union, clamp, lerp, random, randomUnit,
      round, abs, sign, formatNumber, formatPlaces, onText, split, charAt, truncate, hasKey,
      isEmpty, clone, parseJson,
      parseJsonText, toJson, take, drop, orElse]
    exact Keeps.parts

/-! ## Methods of plain values -/

instance countItems_keeps (xs : List Value) (v : Value) : Gives strict (countItems xs v) := by
  unfold countItems
  exact Keeps.parts

instance bounded_keeps (s : String) (args : List Value) : Keeps strict (bounded s args) := by
  unfold bounded
  exact Keeps.parts

instance textItem_keeps (p : Nat × Value) : Keeps strict (textItem p) := by
  unfold textItem
  exact Keeps.parts

instance joinTexts_keeps (sep : String) {v : Value} [h : Fact (v.Fits strict)] :
    Gives strict (joinTexts sep v) := by
  unfold joinTexts
  exact Keeps.parts

variable [h : Fact (∀ v ∈ args, v.Fits strict)]

instance oneArgument_keeps (owner name : String) : Gives strict (oneArgument owner name args) := by
  unfold oneArgument
  split
  · exact .pure (h.out _ List.mem_cons_self)
  · exact .fail _

instance callTextMethod_keeps (s name : String) : Gives strict (callTextMethod s name args) := by
  unfold callTextMethod padMethod startsWith endsWith findIn stripped splitMethod
  exact Keeps.parts

instance callArrayMethod_keeps (l : Loc) (name : String) :
    Gives strict (callArrayMethod l name args) := by
  have done {r : Routine Unit} (hr : Keeps strict r) :
      Gives strict (do r; return .null) :=
    hr.seq <| .leaf rfl
  unfold callArrayMethod
  split
  · exact (oneArgument_keeps _ _).bind fun v hv =>
      done (.modifyItems fun _ hxs => Value.fits_push hxs hv)
  · refine (oneArgument_keeps _ _).bind fun v hv => (iterate_keeps (h := ⟨hv⟩)).bind
      fun ys hys => ?_
    refine done (.modifyItems fun xs hxs x hx => ?_)
    rcases Array.mem_append.1 hx with hx | hx
    · exact hxs x hx
    · exact hys x (List.mem_toArray.1 hx)
  · refine Still.keeps.seq <| Still.keeps.bind fun i _ => ?_
    refine done (.modifyItems fun xs hxs x hx => ?_)
    rcases mem_or_eq_of_mem_insert hx with hx | rfl
    · exact hxs x hx
    · exact Value.fits_getD h.out 1
  · refine Still.keeps.seq <| Still.keeps.bind fun i _ =>
      (Ensures.items _).bind fun xs hxs => .ite (.fail _) ?_
    split
    · exact .fail _
    · refine (Ensures.setItems fun x hx => ?_).seq <| .pure (fits_arrayGetD hxs _)
      exact hxs x (mem_of_mem_erase hx)
  · refine (oneArgument_keeps _ _).bind fun v _ => (Ensures.items _).bind fun xs hxs =>
      Ensures.heap.bind fun s _ => (Ensures.ofExcept_any _).bind fun i _ => ?_
    cases i with
    | none => exact .fail _
    | some i => exact done (.setItems fun x hx => hxs x (mem_of_mem_erase hx))
  · refine (Ensures.items _).bind fun xs _ => Still.keeps.bind fun i _ => ?_
    cases i with
    | some i => exact .leaf rfl
    | none => exact Still.keeps.seq <| .fail _
  · exact (oneArgument_keeps _ _).seq <| (Ensures.items _).seq <| countItems_keeps _ _
  · refine .ite ?_ (.fail _)
    refine (Ensures.items _).bind fun xs hxs => (sorted_keeps xs.toList).bind fun ys hys => ?_
    refine done (.setItems fun x hx => ?_)
    exact hxs x (Array.mem_toList_iff.1 (hys (List.mem_toArray.1 hx)))
  · refine Still.keeps.seq <| done (.modifyItems fun xs hxs x hx => ?_)
    exact hxs x (Array.mem_reverse.1 hx)
  · exact Still.keeps.seq <| (Ensures.items _).bind fun _ hxs =>
      .newArray hxs
  · exact Still.keeps.seq <| done (.setItems (by simp))
  · exact .leaf rfl

instance callTupleMethod_keeps (xs : List Value) (name : String) :
    Gives strict (callTupleMethod xs name args) := by
  unfold callTupleMethod
  exact Keeps.parts

instance callMethodOf_keeps (receiver : Value) (name : String) :
    Gives strict (callMethodOf receiver name args) := by
  unfold callMethodOf
  exact Keeps.parts

end

theorem plainMember?_fits {v w : Value} {name : String} (hv : v.Fits strict)
    (h : plainMember? v name = some w) : w.Fits strict := by
  have method {names : List String}
      (h : (if names.contains name then some (Value.bound v name) else none) = some w) :
      w.Fits strict := by
    split at h
    · cases h
      exact hv
    · contradiction
  unfold plainMember? at h
  dsimp only at h
  split at h
  · exact method h
  · exact method h
  · exact method h
  · split at h
    · cases h
      exact fun _ => rfl
    · exact method h
  · split at h
    · cases h
      exact fun _ => rfl
    · exact method h
  · split at h
    · cases h
      exact fun _ => rfl
    · exact method h
  · split at h
    · cases h
      exact fun _ => rfl
    · exact method h
  · contradiction

end ScriptLang.Library
