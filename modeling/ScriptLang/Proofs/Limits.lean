import ScriptLang.Proofs.ArrayParts
import ScriptLang.Proofs.SharedRecords

/-!
# Limits of selections

A limit other than zero cuts what a selection finds, and what a query finds, at so many records. The
limit zero counts as none.
-/

namespace ScriptLang.Package

open ScriptLang.Action

variable {s : Setting} {id : Nat} {name : Value} {table data conditions : Loc} {rows : List Loc}
  {cs : Entries}

/-- What a limit leaves of a list. -/
def upTo (n : Nat) (xs : List Value) : List Value :=
  if n = 0 then xs else xs.take n

theorem capped_nat (h : Heap) (n : Nat) (xs : List Value) :
    capped h (.int n) xs.toArray = .ok (upTo n xs).toArray := by
  by_cases hn : n = 0
  · subst hn
    rfl
  · have htruthy : h.truthy (.int n) = true := by simpa [Heap.truthy] using hn
    have hslice : sliceArray xs.toArray 0 n = (xs.take n).toArray := by
      rw [sliceArray_toArray, sliceList_front, sliceBound_nat, ← List.take_eq_take_min]
    rw [capped, htruthy, if_pos rfl, upTo, if_neg hn, ← hslice]
    rfl

/-- A selection with a limit, and a query with it, has the first records that meet the conditions,
and all of them where the limit is zero. -/
theorem limit_zero_is_none (h : TableAt s id name table data rows)
    (hconditions : Answerable s rows conditions cs) (n : Nat) :
    (∃ l s', selectRecords id name (.object conditions) (.int n) s = .ok (.array l) s' ∧
      s.Grows s' ∧
      s'.heap.items l = (upTo n ((matching s.heap cs rows).map Value.object)).toArray) ∧
    ∀ q, s.databases.current = some id →
      s.databases.queries[q]? = some { table := name, conditions, limit := .int n } →
      runQuery q s = selectRecords id name (.object conditions) (.int n) s := by
  have hmet : metRecords (rows.map Value.object) (.object conditions) s =
      .ok ((matching s.heap cs rows).map Value.object) s := by
    refine (bind_ok hconditions.truthy_ok).trans ?_
    cases cs with
    | nil => rw [matching_nil]; rfl
    | cons c cs => exact filterM_records fun r hr => hconditions.meets_ok hr
  have hpicked : pickRecords (rows.map Value.object) (.object conditions) (.int n) s =
      .ok (upTo n ((matching s.heap cs rows).map Value.object)).toArray s := by
    rw [pickRecords, bind_ok hmet, bind_ok (heap_ok s), capped_nat]
    rfl
  refine ⟨?_, fun q hcurrent hq => ?_⟩
  · rcases h.selected (.object conditions) (show s.heap.HasAll (.int n) by rintro _ ⟨⟩) with
      ⟨e, s₁, hfails, -⟩ | ⟨xs, l, s₁, hpick, hselect, hgrows, hitems, -⟩
    · cases hpicked.symm.trans hfails
    · cases hpicked.symm.trans hpick
      exact ⟨l, s₁, hselect, hgrows, hitems⟩
  · have hquery : queryAt q s = .ok { table := name, conditions, limit := .int n } s := by
      show EStateM.Result.ok (s.databases.queries.getD q _) s = _
      rw [Array.getD_eq_getD_getElem?, hq]
      rfl
    have hhere : connected s = .ok id s := by
      refine (bind_ok (show (get : Routine Setting) s = .ok s s from rfl)).trans ?_
      rw [hcurrent]
      rfl
    exact (bind_ok hquery).trans (bind_ok hhere)

theorem twoRecords_limited : ∃ l s', selectRecords 0 (.text "t") (.object 5) (.int 1) twoRecords =
    .ok (.array l) s' ∧ s'.heap.items l = #[.object 0] := by
  have hanswer : Answerable twoRecords [0, 1] 5 [] := ⟨rfl, by decide, fun _ _ => ⟨true, rfl⟩⟩
  obtain ⟨l, s', hselect, -, hitems⟩ := (limit_zero_is_none twoRecords_table hanswer 1).1
  exact ⟨l, s', hselect, hitems⟩

/-- A limit of zero gives both records. -/
theorem twoRecords_unlimited :
    selectRecords 0 (.text "t") (.object 5) (.int 0) twoRecords = .ok (.array 4) twoRecords ∧
      twoRecords.heap.items 4 = #[.object 0, .object 1] :=
  ⟨rfl, rfl⟩

end ScriptLang.Package
