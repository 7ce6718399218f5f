import ScriptLang.Proofs.PlainCode

/-!
# Functions that call functions keep the world in order

Copies, the functions that go over arrays with a function, functions made from functions, and the
members of values: each keeps the world in order when its calls do. Where data is to be plain, the
raw functions and the packages are out of reach, since no plain value is one of them.
-/

namespace ScriptLang

open ScriptLang.Action ScriptLang.Policy

variable {v : Value}

variable {strict : Bool} {own : Option Loc}

/-! ## Copies -/

namespace Library

variable {done : Copies}

/-- Where data is to be plain, the copies that were made are. -/
def Copies.Fits (strict : Bool) (done : Copies) : Prop :=
  ∀ p ∈ done.cells, p.2.Fits strict

/-- What copying a value gives: a value that fits, and of a text the text itself. -/
structure CopyOf (strict : Bool) (v : Value) (r : Value × Copies) : Prop where
  fits : r.1.Fits strict
  done : r.2.Fits strict
  text : ∀ s, v = .text s → r.1 = .text s

/-- What copying a list gives. -/
structure CopiesOf (strict : Bool) (vs : List Value) (r : List Value × Copies) : Prop where
  fits : ∀ v ∈ r.1, v.Fits strict
  done : r.2.Fits strict
  length : r.1.length = vs.length
  texts : (∀ v ∈ vs, ∃ s, v = .text s) → r.1 = vs

theorem Copies.Fits.cons (h : done.Fits strict) (l : Loc)
    (hv : v.Fits strict) : Copies.Fits strict { done with cells := (l, v) :: done.cells } := by
  intro p hp
  rcases List.mem_cons.1 hp with rfl | hp
  · exact hv
  · exact h p hp

theorem Copies.Fits.lookup (h : done.Fits strict) {l : Loc}
    (hv : done.cells.lookup l = some v) : v.Fits strict := by
  obtain ⟨p, hp, rfl⟩ := exists_mem_of_lookup hv
  exact h p hp

theorem fits_zip_copies {es : Entries} (hes : Entries.Fits strict es) {ks vs : List Value × Copies}
    (hks : CopiesOf strict (es.map (·.1)) ks) (hvs : CopiesOf strict (es.map (·.2)) vs) :
    Entries.Fits strict (ks.1.zip vs.1) := by
  intro hstrict
  have hplain := hes hstrict
  have htexts : ∀ k ∈ es.map (·.1), ∃ s, k = .text s := by
    intro k hk
    obtain ⟨e, he, rfl⟩ := List.mem_map.1 hk
    exact hplain.texts e he
  have hkeys : ks.1 = es.map (·.1) := hks.texts htexts
  refine ⟨fun e he => ?_, ?_, fun e he => ?_⟩
  · have hmem := (List.of_mem_zip he).1
    rw [hkeys] at hmem
    exact htexts e.1 hmem
  · have hlength : ks.1.length ≤ vs.1.length := by rw [hks.length, hvs.length]; simp
    rw [List.map_fst_zip hlength, hkeys]
    exact hplain.distinct
  · exact hvs.fits e.2 (List.of_mem_zip he).2 hstrict

section

variable {copy : Copies → Value → Action (Value × Copies)}
  (h : ∀ done v, Copies.Fits strict done → v.Fits strict →
    Upholds strict none (copy done v) (CopyOf strict v))

include h

theorem copyList_upholds {vs : List Value} (hvs : ∀ v ∈ vs, v.Fits strict)
    (hdone : done.Fits strict) :
    Upholds strict none (copyList copy vs done) (CopiesOf strict vs) := by
  induction vs generalizing done with
  | nil => exact .pure ⟨nofun, hdone, rfl, fun _ => rfl⟩
  | cons v vs ih =>
    rw [List.forall_mem_cons] at hvs
    refine (h done v hdone hvs.1).bind fun r hr => (ih hvs.2 hr.done).bind fun rs hrs => .pure ?_
    refine ⟨?_, hrs.done, ?_, fun htexts => ?_⟩
    · rw [List.forall_mem_cons]
      exact ⟨hr.fits, hrs.fits⟩
    · rw [List.length_cons, List.length_cons, hrs.length]
    · rw [List.forall_mem_cons] at htexts
      obtain ⟨⟨s, rfl⟩, htexts⟩ := htexts
      rw [hr.text s rfl, hrs.texts htexts]

/-- The copy of a class is written again once the values of its properties are copied. -/
theorem fillClass_upholds {ps : List PropertyRef}
    (hcopied : ∀ p ∈ ps, ∀ v, p.source = .copied v → v.Fits strict) (k : Loc)
    (hdone : done.Fits strict) :
    Upholds strict none (fillClass copy ps k done) fun r => r.2.Fits strict := by
  refine Ensures.code.bind fun c hc => ?_
  refine (copyList_upholds h ?_ hdone).bind fun r hr => .seq (.setProperties k ?_) <| .pure hr.done
  · intro v hv
    obtain ⟨p, hp, rfl⟩ := List.mem_map.1 hv
    exact hc.propertyValue (hcopied p hp)
  · intro p hp v hsource
    obtain ⟨q, hq, rfl⟩ := List.mem_map.1 hp
    cases hsource
    exact hr.fits q.2 (List.of_mem_zip hq).2

theorem copyClass_upholds (hdone : done.Fits strict) (l : Loc) :
    Upholds strict none (copyClass copy done l) fun r => r.2.Fits strict := by
  unfold copyClass
  split
  · exact .pure hdone
  · refine Ensures.code.bind fun c hc => ?_
    have hancestors : ∀ v ∈ (c.classAt l).parent.toList.map Value.class, v.Fits strict := by
      intro v hv
      obtain ⟨p, -, rfl⟩ := List.mem_map.1 hv
      exact fun _ => rfl
    refine (copyList_upholds h hancestors hdone).bind fun r hr => ?_
    dsimp only
    split
    · exact .pure hr.done
    · exact Ensures.code.seq <| .bind (.newClass (hc.obeys.classAt l) (hc.classAt l)) fun k _ =>
        fillClass_upholds h (hc.classAt l) k hr.done

end

theorem copyDeep_upholds (d : Nat) (hdone : done.Fits strict)
    (hv : v.Fits strict) : Upholds strict none (copyDeep d done v) (CopyOf strict v) := by
  induction d generalizing done v with
  | zero => exact .failing _
  | succ d ih =>
    have list {vs : List Value} {done : Copies} (hvs : ∀ v ∈ vs, v.Fits strict)
        (hdone : done.Fits strict) :
        Upholds strict none (copyList (copyDeep d) vs done) (CopiesOf strict vs) :=
      copyList_upholds (fun _ _ hdone hv => ih hdone hv) hvs hdone
    rw [copyDeep.eq_def]
    dsimp only
    split
    · -- where data is to be plain there are no tuples
      obtain rfl := hv.loose rfl
      exact (list (fun _ _ => Value.fits_loose _) hdone).bind fun r hr =>
        .pure ⟨Value.fits_loose _, hr.done, nofun⟩
    · next l =>
      split
      · next w hw => exact .pure ⟨hdone.lookup hw, hdone, nofun⟩
      · refine .bind (.lift (.alloc (c := .array #[]) nofun)) fun k _ => ?_
        refine .bind (.lift (.items l)) fun xs hxs => ?_
        refine (list (by simpa using hxs) (hdone.cons l fun _ => rfl)).bind fun r hr => ?_
        exact .seq (.lift (.setItems (by simpa using hr.fits))) <|
          .pure ⟨fun _ => rfl, hr.done, nofun⟩
    · next l =>
      split
      · next w hw => exact .pure ⟨hdone.lookup hw, hdone, nofun⟩
      · refine .bind (.lift (.alloc (c := .object []) fun _ => .nil)) fun k _ => ?_
        refine .bind (.lift (.entries l)) fun es hes => ?_
        refine (list hes.keys (hdone.cons l fun _ => rfl)).bind fun ks hks => ?_
        refine (list hes.values hks.done).bind fun vs hvs => ?_
        exact .seq (.lift (.setEntries (fits_zip_copies hes hks hvs))) <|
          .pure ⟨fun _ => rfl, hvs.done, nofun⟩
    · next l =>
      split
      · next w hw => exact .pure ⟨hdone.lookup hw, hdone, nofun⟩
      · refine .bind (.lift .heap) fun s hs => .bind (.lift .heap) fun s' _ => ?_
        -- the copy gets its class and its properties at the end
        refine .inNewCell nofun fun k => ?_
        refine .bind (.widen (ih (hdone.cons l fun _ => rfl) fun _ => rfl)) fun owner howner => ?_
        refine .bind (.widen (list ?_ howner.done)) fun vs hvs => ?_
        · intro v hv
          obtain ⟨p, hp, rfl⟩ := List.mem_map.1 hv
          exact hs.instanceAt l p hp
        · refine .bind .code fun c _ => .seq (.setOwn k ?_) <| .pure ⟨fun _ => rfl, hvs.done, nofun⟩
          intro p hp
          exact hvs.fits p.2 (List.of_mem_zip hp).2
    · exact (copyClass_upholds (fun _ _ hdone hv => ih hdone hv) hdone _).bind fun r hr =>
        .pure ⟨fun _ => rfl, hr, nofun⟩
    · exact .failing _
    · exact .failing _
    · exact .pure ⟨hv, hdone, fun s hs => hs⟩

theorem deepCopy_upholds (hv : v.Fits strict) : Delivers strict own (deepCopy v) := by
  have hnone : Copies.Fits strict {} := nofun
  exact .bind (.widen (copyDeep_upholds _ hnone hv)) fun _ hr => .pure hr.fits

/-! ## Functions over arrays -/

/-- Calls keep the world in order when a function and arguments that fit are given. -/
abbrev CallsUphold (strict : Bool) (own : Option Loc) (call : Caller) : Prop :=
  ∀ f args, Value.Fits strict f → (∀ v ∈ args, Value.Fits strict v) →
    Delivers strict own (call f args)

section

variable {call : Caller} (h : CallsUphold strict own call) {arr f : Value} (harr : arr.Fits strict)
  (hf : f.Fits strict)

include h hf

theorem call_upholds (hv : v.Fits strict) : Delivers strict own (call f [v]) :=
  h f [v] hf (by simpa using hv)

theorem test_upholds (hv : v.Fits strict) :
    Upholds strict own (do truthy (← call f [v]) : Action Bool) :=
  (call_upholds h hf hv).seq <| .lift Still.keeps

theorem failing_upholds (hv : v.Fits strict) :
    Upholds strict own (do return !(← truthy (← call f [v])) : Action Bool) :=
  (call_upholds h hf hv).seq <| .seq (.lift Still.keeps) <| .pure trivial

theorem every_upholds (arr : Value) : Delivers strict own (every call arr f) := by
  unfold every
  split
  · exact (Ensures.findItem fun _ hv => failing_upholds h hf hv).seq <| .leaf rfl
  · exact .leaf rfl

theorem someOf_upholds (arr : Value) : Delivers strict own (someOf call arr f) := by
  unfold someOf
  split
  · exact (Ensures.findItem fun _ hv => test_upholds h hf hv).seq <| .leaf rfl
  · exact .leaf rfl

theorem find_upholds (arr : Value) : Delivers strict own (find call arr f) := by
  unfold find
  split
  · refine (Ensures.findItem fun _ hv => test_upholds h hf hv).bind fun r hr => .pure ?_
    cases r with
    | none => exact fun _ => rfl
    | some p => exact hr p rfl
  · exact .leaf rfl

theorem findIndex_upholds (arr : Value) : Delivers strict own (findIndex call arr f) := by
  unfold findIndex
  split
  · refine (Ensures.findItem fun _ hv => test_upholds h hf hv).bind fun r _ => ?_
    split
    · exact .leaf rfl
    · exact .leaf rfl
  · exact .leaf rfl

theorem takeWhile_upholds (arr : Value) : Delivers strict own (takeWhile call arr f) := by
  unfold takeWhile
  split
  · refine (Ensures.foldItems (Q := fun xs => ∀ x ∈ xs, Value.Fits strict x) (by simp)
      fun i v acc hv hacc => ?_).bind fun xs hxs => .lift (.newArray hxs)
    refine (call_upholds h hf hv).seq <| .seq (.lift Still.keeps) <| .ite (.pure ?_) (.pure hacc)
    exact Value.fits_push hacc hv
  · exact .lift (.arrayOf (by simp))

theorem partition_upholds (arr : Value) : Delivers strict own (partition call arr f) := by
  have finish {yes no : Array Value} (hyes : ∀ v ∈ yes, v.Fits strict)
      (hno : ∀ v ∈ no, v.Fits strict) : Delivers strict own (do
        let yes ← newArray yes
        let no ← newArray no
        arrayOf [yes, no] : Action Value) := by
    refine .bind (.lift (.newArray hyes)) fun a ha => .bind (.lift (.newArray hno)) fun b hb =>
      .lift (.arrayOf ?_)
    simpa using ⟨ha, hb⟩
  unfold partition
  split
  · exact (Ensures.partitionItems fun _ hv => test_upholds h hf hv).bind fun r hr =>
      finish hr.1 hr.2
  · exact finish (by simp) (by simp)

theorem times_upholds (n : Value) : Delivers strict own (times call n f) := by
  refine .bind (.lift (lenientInt_keeps _)) fun k _ => ?_
  refine (Ensures.foldlM (S := fun xs => ∀ x ∈ xs, Value.Fits strict x) (by simp)
    fun i _ acc hacc => ?_).bind fun xs hxs => .lift (.newArray hxs)
  exact (call_upholds h hf fun _ => rfl).bind fun r hr => .pure (Value.fits_push hacc hr)

theorem reduce_upholds (arr : Value) {start : Value} (hstart : start.Fits strict) :
    Delivers strict own (reduce call arr f start) := by
  unfold reduce
  split
  · next l =>
    have fold {first : Value} (hfirst : first.Fits strict) (is : List Nat) :
        Delivers strict own (is.foldlM (fun acc (i : Nat) => do
          let v ← getItem (.array l) (.int i)
          call f [acc, v]) first) := by
      refine .foldlM hfirst fun i _ acc hacc => ?_
      refine .bind (.lift (getItem_keeps _)) fun v hv => h f _ hf ?_
      simpa using ⟨hacc, hv⟩
    refine .bind (.lift (.items l)) fun xs hxs => .ite (.pure hstart) ?_
    dsimp only
    split
    · exact fold (fits_arrayGetD hxs 0) _
    · exact fold hstart _
  · exact .pure hstart

theorem groupStep_upholds (i : Nat) (v : Value) (acc : Entries) (hv : v.Fits strict)
    (hacc : Entries.Fits strict acc) :
    Upholds strict own (groupStep call f i v acc) fun r => Entries.Fits strict r.value := by
  refine (call_upholds h hf hv).bind fun r _ => .bind (.lift Still.keeps) fun key _ => ?_
  dsimp only
  split
  · next group hgroup =>
    exact (Ensures.lift (push_keeps (h := ⟨hacc.get? hgroup⟩) (k := ⟨hv⟩))).discard.seq <|
      .pure hacc
  · exact .bind (.lift (.arrayOf (by simpa using hv))) fun g hg => .pure (hacc.put key hg)

theorem groupBy_upholds (arr : Value) : Delivers strict own (groupBy call arr f) := by
  unfold groupBy
  split
  · exact (Ensures.foldItems (fun _ => .nil) (groupStep_upholds h hf)).bind fun _ hes =>
      .lift (.newObject hes)
  · exact .lift (.newObject fun _ => .nil)

include harr

theorem filter_upholds : Delivers strict own (filter call arr f) := by
  unfold filter
  split
  · exact (Ensures.partitionItems fun _ hv => test_upholds h hf hv).bind fun _ hr =>
      .lift (.newArray hr.1)
  · exact .pure harr

theorem map_upholds : Delivers strict own (map call arr f) := by
  unfold map
  split
  · refine (Ensures.foldItems (Q := fun xs => ∀ x ∈ xs, Value.Fits strict x) (by simp)
      fun i v acc hv hacc => ?_).bind fun xs hxs => .lift (.newArray hxs)
    exact (call_upholds h hf hv).bind fun r hr => .pure (Value.fits_push hacc hr)
  · exact .pure harr

theorem forEach_upholds : Delivers strict own (forEach call arr f) := by
  unfold forEach
  split
  · refine (Ensures.foldItems (Q := fun _ => True) trivial fun i v acc hv _ => ?_).seq <| .pure harr
    exact (call_upholds h hf hv).discard.give
  · exact .pure harr

theorem sortBy_upholds : Delivers strict own (sortBy call arr f) := by
  unfold sortBy
  split
  · next l =>
    refine .bind (.lift (.items l)) fun xs hxs => ?_
    refine (Ensures.mapM (S := fun p => Value.Fits strict p.2) fun v hv => ?_).bind
      fun pairs hpairs => .bind (.lift .heap) fun s _ =>
      .bind (.lift (.ofExcept fun out hout => sortByKeys_subset hout)) fun out hout =>
      .lift (.arrayOf ?_)
    · have hfits : v.Fits strict := hxs v (by simpa using hv)
      exact (call_upholds h hf hfits).seq <| .pure hfits
    · intro v hv
      obtain ⟨p, hp, rfl⟩ := List.mem_map.1 hv
      exact hpairs p (hout hp)
  · exact .pure harr

theorem dropWhile_upholds : Delivers strict own (dropWhile call arr f) := by
  unfold dropWhile
  split
  · refine (Ensures.findItem fun _ hv => failing_upholds h hf hv).bind fun r _ => ?_
    split
    · exact .lift (Action.slice_keeps (h := ⟨harr⟩) _ _)
    · exact .lift (.arrayOf (by simp))
  · exact .pure harr

end

theorem countBy_upholds {call : Caller} (h : CallsUphold false own call) (arr f : Value) :
    Upholds false own (countBy call arr f) (Value.Fits false) := by
  unfold countBy
  split
  · refine (Ensures.foldItems (Q := fun _ => True) trivial fun i v acc _ _ => ?_).bind
      fun es _ => .lift (.newObject (Entries.fits_loose _))
    exact (h f [v] f.fits_loose fun _ _ => Value.fits_loose _).bind fun key _ =>
      .seq (.lift Still.keeps) <| .pure trivial
  · exact .lift (.newObject (Entries.fits_loose _))

theorem runCore_upholds {call : Caller} (h : CallsUphold strict own call) (f : CoreFn)
    {args : List Value} (hargs : ∀ v ∈ args, v.Fits strict) (hf : strict = true → f.isRaw = false) :
    Delivers strict own (runCore call f args) := by
  have arg (i : Nat) : (args.getD i .null).Fits strict := Value.fits_getD hargs i
  cases f with
  | filter => exact filter_upholds h (arg 0) (arg 1)
  | map => exact map_upholds h (arg 0) (arg 1)
  | deepCopy => exact deepCopy_upholds (arg 0)
  | forEach => exact forEach_upholds h (arg 0) (arg 1)
  | reduce => exact reduce_upholds h (arg 1) _ (arg 2)
  | every => exact every_upholds h (arg 1) _
  | some => exact someOf_upholds h (arg 1) _
  | find => exact find_upholds h (arg 1) _
  | findIndex => exact findIndex_upholds h (arg 1) _
  | groupBy => exact groupBy_upholds h (arg 1) _
  | sortBy => exact sortBy_upholds h (arg 0) (arg 1)
  | takeWhile => exact takeWhile_upholds h (arg 1) _
  | dropWhile => exact dropWhile_upholds h (arg 0) (arg 1)
  | partition => exact partition_upholds h (arg 1) _
  | countBy =>
    cases strict with
    | true => exact absurd (hf rfl) (by decide)
    | false => exact countBy_upholds h _ _
  | times => exact times_upholds h (arg 1) _
  | _ => exact .lift (runPlain_keeps _ hargs hf)

/-! ## Functions made from functions -/

theorem bind_fits {s : Signature} {name : String} {args vs : List Value}
    (hargs : ∀ v ∈ args, v.Fits strict) (h : s.bind name args = .ok vs) :
    ∀ v ∈ vs, v.Fits strict := by
  unfold Signature.bind at h
  split at h
  · cases h
    exact hargs
  · dsimp only at h
    split at h
    · contradiction
    · split at h
      · cases h
        intro v hv
        rcases List.mem_append.1 hv with hv | hv
        · exact hargs v hv
        · obtain ⟨p, -, rfl⟩ := List.mem_map.1 hv
          exact Value.fits_of_isPlain (Value.isPlain_ofLiteral _)
      · contradiction

theorem single_keeps (name param : String) {args : List Value} (hargs : ∀ v ∈ args, v.Fits strict) :
    Gives strict (single name param args) := by
  refine .bind (.ofExcept fun vs hvs => bind_fits hargs hvs) fun vs hvs => .pure ?_
  cases vs with
  | nil => exact fun _ => rfl
  | cons v vs => exact hvs v List.mem_cons_self

end Library

namespace Derived.Fits

variable {d : Derived} (h : d.Fits strict)

include h

theorem parts : ∀ v ∈ d.parts, v.Fits strict := by
  intro v hv hstrict
  have hplain := h hstrict
  cases d with
  | clickHandler => contradiction
  | _ => exact List.all_eq_true.1 hplain v hv

theorem keeping (key : String) (hv : v.Fits strict) : (d.keeping key v).Fits strict := by
  intro hstrict
  have hplain := h hstrict
  cases d with
  | memoized f cache =>
    have hold := List.all_eq_true.1 hplain
    refine List.all_eq_true.2 fun u hu => ?_
    rcases List.mem_cons.1 hu with rfl | hu
    · exact hold u List.mem_cons_self
    · rcases List.mem_cons.1 hu with rfl | hu
      · exact hv hstrict
      · exact hold u (List.mem_cons_of_mem _ hu)
  | _ => exact hplain

theorem finished (hv : v.Fits strict) : (d.finished v).Fits strict := by
  intro hstrict
  have hplain := h hstrict
  cases d with
  | once f called result =>
    have hold : f.isPlain = true ∧ result.isPlain = true := by
      simpa [Derived.isPlain, Derived.parts] using hplain
    simpa [Derived.finished, Derived.isPlain, Derived.parts] using ⟨hold.1, hv hstrict⟩
  | _ => exact hplain

theorem lastRun (now : Float) : (d.lastRun now).Fits strict := by
  cases d <;> exact h

end Derived.Fits

namespace Library

section

variable {call : Caller} (h : CallsUphold strict own call) {args : List Value}
  (hargs : ∀ v ∈ args, v.Fits strict)

include h hargs

theorem callCurried_upholds (l : Loc) {f arity : Value} (hf : f.Fits strict) :
    Delivers strict own (callCurried call l f arity args) := by
  refine .seq (.lift (ordered_keeps _ _ _)) <| .ite ?_ ?_
  · refine .bind (.lift (.ofExcept_any _)) fun n _ => ?_
    cases n with
    | some n => exact h f _ hf (Value.fits_of_mem hargs (sliceList_subset _ _ _))
    | none => exact h f args hf hargs
  · refine .lift (newDerived_keeps rfl ?_)
    simpa [Derived.parts] using ⟨fun _ => rfl, hargs⟩

omit hargs in
theorem chained_upholds {fs : List Value} (hfs : ∀ f ∈ fs, f.Fits strict) {x : Value}
    (hx : x.Fits strict) : Delivers strict own (chained call fs x) :=
  .foldlM hx fun f hf _ hacc => call_upholds h (hfs f hf) hacc

theorem callWaiting_upholds (l : Loc) (last : Float) (delay : Value) {f : Value}
    (hf : f.Fits strict) : Delivers strict own (callWaiting call l f last delay args) := by
  refine .bind (.lift (mayRun_keeps _ _)) fun r _ => ?_
  cases r with
  | some now =>
    exact .seq (.modifyDerived (fun d => by cases d <;> rfl) fun d hd => hd.lastRun now) <|
      h f args hf hargs
  | none => exact .leaf rfl

theorem callDerived_upholds (l : Loc) {d : Derived} (hd : d.Fits strict) :
    Delivers strict own (callDerived call l d args) := by
  have parts := hd.parts
  cases d with
  | memoized f cache =>
    refine .bind (.lift Still.keeps) fun key _ => ?_
    split
    · next v hv =>
      obtain ⟨p, hp, rfl⟩ := exists_mem_of_lookup hv
      exact .pure (parts p.2 (List.mem_cons_of_mem _ (List.mem_map_of_mem hp)))
    · refine (h f args (parts f List.mem_cons_self) hargs).bind fun v hv => ?_
      exact .seq (.modifyDerived (fun d => by cases d <;> rfl) fun d hd => hd.keeping key hv) <|
        .pure hv
  | curried f arity => exact callCurried_upholds h hargs l (parts f (by simp [Derived.parts]))
  | applied c first =>
    refine h _ _ (fun _ => rfl) fun v hv => ?_
    rcases List.mem_append.1 hv with hv | hv
    · exact parts v (by simp [Derived.parts, hv])
    · exact hargs v hv
  | composed fs =>
    refine .bind (.lift (single_keeps _ _ hargs)) fun x hx => chained_upholds h ?_ hx
    exact fun f hf => parts f (List.mem_reverse.1 hf)
  | piped fs =>
    exact .bind (.lift (single_keeps _ _ hargs)) fun x hx => chained_upholds h parts hx
  | constant v =>
    exact (Ensures.lift (.ofExcept_any _)).discard.seq <| .pure (parts v (by simp [Derived.parts]))
  | negated f =>
    exact (h f args (parts f (by simp [Derived.parts])) hargs).seq <|
      .seq (.lift Still.keeps) <| .leaf rfl
  | once f called result =>
    have finish {v : Value} (hv : v.Fits strict) :
        Upholds strict own (liftM (modifyDerived l (·.finished v)) : Action Unit) :=
      .modifyDerived (fun d => by cases d <;> rfl) fun d hd => hd.finished hv
    refine .ite (.pure (parts result (by simp [Derived.parts]))) ?_
    exact (finish fun _ => rfl).seq <| (h f args (parts f (by simp [Derived.parts])) hargs).bind
      fun v hv =>
      (finish hv).seq <| .pure hv
  | debounced f delay last =>
    exact callWaiting_upholds h hargs l last delay (parts f (by simp [Derived.parts]))
  | throttled f delay last =>
    exact callWaiting_upholds h hargs l last delay (parts f (by simp [Derived.parts]))
  | clickHandler widget =>
    -- handlers of clicks are not plain
    obtain rfl : strict = false := by
      cases strict with
      | false => rfl
      | true => exact absurd (hd rfl) Bool.false_ne_true
    refine .bind .get fun w _ => .seq (.lift Still.keeps) <| .ite ?_ (.leaf rfl)
    exact (h _ _ (Value.fits_loose _) (by simp)).discard.seq <| .leaf rfl
  | method => exact .leaf rfl
  | staticMethod => exact .leaf rfl

end

end Library

/-! ## Functions of packages -/

theorem Package.watch_upholds {call : Caller} (h : Library.CallsUphold false own call)
    (path callback interval : Value) (n : Nat) (last : Float) :
    Upholds false own (Package.watch call path callback interval n last) := by
  induction n generalizing last with
  | zero => exact .throw trivial
  | succ n ih =>
    refine (Ensures.lift (Library.sleep_keeps _)).discard.seq <|
      .bind (.lift IsTame.tame) fun now _ => ?_
    cases now with
    | none => exact ih last
    | some now =>
      refine .ite (ih last) ?_
      exact (h _ _ (Value.fits_loose _) fun _ _ => Value.fits_loose _).discard.seq <| ih now

theorem Policy.Ensures.tame {r : Routine Value} (h : Tame r) :
    Upholds false own (liftM r : Action Value) (Value.Fits false) :=
  (lift h).mono fun v _ => v.fits_loose

theorem Native.invoke_upholds {call : Caller} (h : Library.CallsUphold strict own call) {f : Native}
    (hf : (Value.native f).Fits strict) {args : List Value} (hargs : ∀ v ∈ args, v.Fits strict) :
    Delivers strict own (f.invoke call args) := by
  refine .bind (.lift (.ofExcept fun vs hvs => Library.bind_fits hargs hvs)) fun args hargs => ?_
  cases f with
  | core f =>
    refine Library.runCore_upholds h f hargs fun hstrict => ?_
    simpa [Value.isPlain] using hf hstrict
  | files f =>
    obtain rfl := hf.loose rfl
    cases f with
    | watch =>
      exact .seq (.lift IsTame.tame) <| (Package.watch_upholds h _ _ _ _ _).seq <| .leaf rfl
    | _ => exact .tame IsTame.tame
  | _ =>
    -- the other packages call nothing, and no plain value is one of their functions
    obtain rfl := hf.loose rfl
    exact .tame IsTame.tame

/-! ## Members -/

theorem Value.ownMember?_upholds (hv : v.Fits strict) (name : String) :
    Upholds strict own (v.ownMember? name) fun r => ∀ w ∈ r, w.Fits strict := by
  have handle {r : Routine (Option Value)} (hloose : v.isPlain = false) (hr : Tame r) :
      Upholds strict own (liftM r : Action (Option Value)) fun r => ∀ w ∈ r, w.Fits strict := by
    obtain rfl := hv.loose hloose
    exact (Ensures.lift hr).mono fun _ _ w _ => w.fits_loose
  unfold Value.ownMember?
  split
  · exact handle rfl IsTame.tame
  · refine .bind .code fun c _ => ?_
    split
    · exact .pure (by simp)
    · next f _ =>
      split
      · refine .pure ?_
        rintro _ ⟨⟩ -
        cases f.name <;> rfl
      · refine .bind (.lift (.alloc trivial)) fun l _ => .pure ?_
        rintro _ ⟨⟩ -
        rfl
      · exact .pure (by simp)
  · refine .pure ?_
    intro w hw
    obtain ⟨s, -, rfl⟩ := Option.map_eq_some_iff.1 hw
    exact fun _ => rfl
  · exact handle rfl IsTame.tame
  · exact handle rfl IsTame.tame
  · exact handle rfl IsTame.tame
  · exact handle rfl IsTame.tame
  · exact .pure fun w hw => Library.plainMember?_fits hv hw

theorem Value.member?_upholds (hv : v.Fits strict) (name : String) :
    Upholds strict own (v.member? name) fun r => ∀ w ∈ r, w.Fits strict := by
  refine (Value.ownMember?_upholds hv name).bind fun r hr => ?_
  cases r with
  | some w => exact .pure hr
  | none => exact .ite (.throw trivial) (.pure nofun)

theorem Value.callBound_keeps {receiver : Value} (hreceiver : receiver.Fits strict) (name : String)
    {args : List Value} (hargs : ∀ v ∈ args, v.Fits strict) :
    Gives strict (receiver.callBound name args) := by
  have handle {r : Routine Value} (hloose : receiver.isPlain = false) (hr : Tame r) :
      Gives strict r := by
    obtain rfl := hreceiver.loose hloose
    exact hr.mono fun v _ => v.fits_loose
  unfold Value.callBound
  split
  any_goals exact handle rfl IsTame.tame
  · exact Library.callMethodOf_keeps (h := ⟨hargs⟩) _ name

namespace Action

theorem classMember_upholds (l : Loc) (name : String) :
    Delivers strict own (classMember l name) := by
  refine .bind .code fun c hc => ?_
  split
  · next p hp => exact .pure (hc.propertyValue (hc.classAt l p (List.mem_of_find?_eq_some hp)))
  · exact .ite
      (.lift (Library.newDerived_keeps rfl (by simp [Derived.parts, Value.Fits, Value.isPlain])))
      (.failing _)

theorem member_upholds (hv : v.Fits strict) (name : String) (inside : Bool) :
    Delivers strict own (member v name inside) := by
  unfold member
  split
  · next l =>
    refine .bind (.lift .heap) fun s hs => ?_
    split
    · next w hw =>
      obtain ⟨p, hp, rfl⟩ := exists_mem_of_lookup hw
      exact .pure (hs.instanceAt l p hp)
    · exact .lift
        (Library.newDerived_keeps rfl (by simp [Derived.parts, Value.Fits, Value.isPlain]))
  · exact classMember_upholds _ _
  · exact .lift (fieldOr_keeps _ _)
  · refine (Value.member?_upholds hv name).bind fun r hr => ?_
    cases r with
    | some w => exact .pure (hr w rfl)
    | none => exact .failing _

theorem setProperty_upholds (l : Loc) (name : String) (hv : v.Fits strict) (inside : Bool) :
    Upholds strict own (setProperty l name v inside) := by
  refine .bind (.lift .heap) fun s _ => .bind .code fun c _ => .ite (.failing _)
    (.modifyFixed ?_ ?_)
  · intro c
    cases c <;> rfl
  · intro c hc
    cases c with
    | «instance» cls className props =>
      intro p hp
      rcases mem_putField hp with rfl | hp
      · exact hv
      · exact hc p hp
    | _ => exact hc

theorem setMember_upholds (v : Value) (name : String) {new : Value} (hnew : new.Fits strict) :
    Upholds strict own (setMember v name new) := by
  unfold setMember
  split
  · exact setProperty_upholds _ _ hnew _
  · exact .lift (.modifyEntries fun _ hes => hes.put name hnew)
  · exact .failing _

theorem closure_upholds (scope : ScopeId) {f : FunctionDef (List Stmt)}
    (hf : (Expr.function f).obeys (.plain strict) = true) :
    Delivers strict own (closure scope f) := by
  refine .bind (.newFunction (function_obeys_iff.1 hf).2) fun l _ => ?_
  dsimp only
  split
  · exact .seq (.assign scope _ fun _ => rfl) <| .leaf rfl
  · exact .leaf rfl

theorem instantiate_upholds (cls : Loc) : Upholds strict own (instantiate cls) := by
  refine .bind .code fun c hc => .lift (.alloc ?_)
  intro p hp
  obtain ⟨q, hq, rfl⟩ := List.mem_map.1 hp
  exact hc.propertyValue (hc.classAt cls q (List.mem_filter.1 hq).1)

end Action

end ScriptLang
