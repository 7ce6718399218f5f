import ScriptLang.Program.Parse
import ScriptLang.Value

/-!
# Entries at text keys

The laws of entries whose keys are texts: a text is the same key as itself only, so what is put at
one is found there and nowhere else. An old key keeps its place, and a new one goes last. The same
holds of fields with names.
-/

namespace ScriptLang

variable {es : Entries} {k : Value}

theorem Value.sameKey_text {s : String} : k.sameKey (.text s) = true ↔ k = .text s := by
  cases k <;> simp [Value.sameKey, Value.num?]

theorem Value.text_sameKey {s : String} : (Value.text s).sameKey k = true ↔ k = .text s := by
  cases k with
  | text t => simp [Value.sameKey, eq_comm (a := s)]
  | _ => simp [Value.sameKey, Value.num?]

namespace Entries

theorem has_cons (e : Value × Value) (es : Entries) (k : Value) :
    Entries.has (e :: es) k = (e.1.sameKey k || Entries.has es k) := by
  rw [Entries.has, List.any_cons, Entries.has]

theorem get?_put_self {k : Value} (hk : k.sameKey k = true) (es : Entries) (v : Value) :
    Entries.get? (Entries.put es k v) k = some v := by
  induction es with
  | nil => rw [Entries.put, Entries.get?, if_pos hk]
  | cons e es ih =>
    rw [Entries.put]
    split
    · next hsame => rw [Entries.get?, if_pos hsame]
    · next hdiff => rw [Entries.get?, if_neg hdiff, ih]

theorem get?_put_of_ne {key : String} (hk : k ≠ .text key) (es : Entries) (v : Value) :
    Entries.get? (Entries.put es (.text key) v) k = Entries.get? es k := by
  have hother : ¬ (Value.text key).sameKey k = true := fun h => hk (Value.text_sameKey.1 h)
  induction es with
  | nil => simp [Entries.put, Entries.get?, hother]
  | cons e es ih =>
    rw [Entries.put]
    split
    · next hsame =>
      have hkey : e.1 = .text key := Value.sameKey_text.1 hsame
      rw [Entries.get?, Entries.get?, hkey, if_neg hother, if_neg hother]
    · rw [Entries.get?, Entries.get?, ih]

theorem has_iff_mem {key : String} :
    Entries.has es (.text key) = true ↔ Value.text key ∈ es.map (·.1) := by
  simp [Entries.has, Value.sameKey_text]

theorem keys_put (h : Entries.has es k = true) (v : Value) :
    (Entries.put es k v).map (·.1) = es.map (·.1) := by
  induction es with
  | nil => contradiction
  | cons e es ih =>
    rw [Entries.put]
    split
    · rfl
    · next hdiff =>
      rw [has_cons, Bool.or_eq_true] at h
      rw [List.map_cons, List.map_cons, ih (h.resolve_left hdiff)]

theorem keys_put_of_not_has (h : Entries.has es k = false) (v : Value) :
    (Entries.put es k v).map (·.1) = es.map (·.1) ++ [k] := by
  induction es with
  | nil => rfl
  | cons e es ih =>
    rw [has_cons, Bool.or_eq_false_iff] at h
    rw [Entries.put, if_neg (by simp [h.1])]
    simp [ih h.2]

theorem mem_put {v : Value} {e : Value × Value} (he : e ∈ Entries.put es k v) :
    e ∈ es ∨ e = (k, v) ∨ (∃ f ∈ es, f.1.sameKey k = true ∧ e = (f.1, v)) := by
  induction es with
  | nil => exact .inr (.inl (by simpa [Entries.put] using he))
  | cons f es ih =>
    rw [Entries.put] at he
    split at he
    · next hsame =>
      rcases List.mem_cons.1 he with rfl | he
      · exact .inr (.inr ⟨f, by simp, hsame, rfl⟩)
      · exact .inl (List.mem_cons_of_mem _ he)
    · rcases List.mem_cons.1 he with rfl | he
      · exact .inl (by simp)
      · rcases ih he with he | he | ⟨g, hg, hsame, rfl⟩
        · exact .inl (List.mem_cons_of_mem _ he)
        · exact .inr (.inl he)
        · exact .inr (.inr ⟨g, List.mem_cons_of_mem _ hg, hsame, rfl⟩)

theorem mem_of_get? {v : Value} (h : Entries.get? es k = some v) :
    ∃ e ∈ es, e.1.sameKey k = true ∧ e.2 = v := by
  induction es with
  | nil => contradiction
  | cons e es ih =>
    rw [Entries.get?] at h
    split at h
    · next hsame => exact ⟨e, by simp, hsame, Option.some.inj h⟩
    · obtain ⟨f, hf, hsame⟩ := ih h
      exact ⟨f, List.mem_cons_of_mem _ hf, hsame⟩

theorem exists_get?_of_has (h : Entries.has es k = true) : ∃ v, Entries.get? es k = some v := by
  induction es with
  | nil => contradiction
  | cons e es ih =>
    rw [has_cons, Bool.or_eq_true] at h
    rw [Entries.get?]
    split
    · exact ⟨e.2, rfl⟩
    · next hdiff => exact ih (h.resolve_left hdiff)

theorem has_of_get? {v : Value} (h : Entries.get? es k = some v) : Entries.has es k = true := by
  obtain ⟨e, he, hsame, -⟩ := mem_of_get? h
  exact List.any_eq_true.2 ⟨e, he, hsame⟩

theorem has_eq_of_keys {fs : Entries} (h : es.map (·.1) = fs.map (·.1)) (k : Value) :
    Entries.has es k = Entries.has fs k := by
  have hany (es : Entries) : Entries.has es k = (es.map (·.1)).any (·.sameKey k) := by
    rw [Entries.has, List.any_map]
    rfl
  rw [hany, hany, h]

end Entries

/-! ## Fields with names -/

section

variable {α : Type}

theorem exists_mem_of_lookup {β : Type} [BEq β] {ps : List (β × α)} {k : β} {a : α}
    (h : ps.lookup k = some a) : ∃ p ∈ ps, p.2 = a := by
  induction ps with
  | nil => contradiction
  | cons p ps ih =>
    rw [List.lookup_cons] at h
    split at h
    · cases h
      exact ⟨p, List.mem_cons_self, rfl⟩
    · obtain ⟨q, hq, rfl⟩ := ih h
      exact ⟨q, List.mem_cons_of_mem _ hq, rfl⟩

variable {fs : List (String × α)}

theorem mem_putField {x : String} {a : α} {f : String × α} (h : f ∈ putField x a fs) :
    f = (x, a) ∨ f ∈ fs := by
  induction fs with
  | nil => exact .inl (by simpa [putField] using h)
  | cons g fs ih =>
    rw [putField] at h
    split at h
    · rcases List.mem_cons.1 h with rfl | h
      · exact .inl rfl
      · exact .inr (List.mem_cons_of_mem _ h)
    · rcases List.mem_cons.1 h with rfl | h
      · exact .inr List.mem_cons_self
      · exact (ih h).imp_right (List.mem_cons_of_mem _)

theorem lookup_cons_eq_ite (f : String × α) (fs : List (String × α)) (y : String) :
    (f :: fs).lookup y = if y = f.1 then some f.2 else fs.lookup y := by
  obtain ⟨x, a⟩ := f
  rw [List.lookup_cons]
  by_cases h : y = x
  · simp [h]
  · simp [h, beq_false_of_ne h]

theorem lookup_putField (x y : String) (a : α) (fs : List (String × α)) :
    (putField x a fs).lookup y = if y = x then some a else fs.lookup y := by
  induction fs with
  | nil => rw [putField, lookup_cons_eq_ite]
  | cons f fs ih =>
    rw [putField, lookup_cons_eq_ite f fs]
    split
    · next hf =>
      rw [lookup_cons_eq_ite, hf]
      by_cases hy : y = x <;> simp [hy]
    · next hf =>
      rw [lookup_cons_eq_ite, ih]
      by_cases hy : y = x
      · subst hy
        simp [Ne.symm hf]
      · simp [hy]

theorem putField_of_not_mem {x : String} {v : α} (h : x ∉ fs.map (·.1)) :
    putField x v fs = fs ++ [(x, v)] := by
  induction fs with
  | nil => rfl
  | cons f fs ih =>
    rw [List.map_cons, List.mem_cons, not_or] at h
    rw [putField, if_neg (Ne.symm h.1), ih h.2, List.cons_append]

theorem foldl_putField (h : (fs.map (·.1)).Nodup) :
    fs.foldl (fun fs f => putField f.1 f.2 fs) [] = fs := by
  have : ∀ done : List (String × α), ((done ++ fs).map (·.1)).Nodup →
      fs.foldl (fun fs f => putField f.1 f.2 fs) done = done ++ fs := by
    clear h
    induction fs with
    | nil => simp
    | cons f fs ih =>
      intro done h
      have hf : f.1 ∉ done.map (·.1) := by
        simp only [List.map_append, List.map_cons, List.nodup_append, List.mem_cons] at h
        exact fun hm => h.2.2 _ hm _ (.inl rfl) rfl
      rw [List.foldl_cons, putField_of_not_mem hf, ih _ (by simpa using h)]
      simp
  simpa using this [] (by simpa using h)

theorem names_putField (x : String) (v : α) (fs : List (String × α)) :
    (putField x v fs).map (·.1) = if x ∈ fs.map (·.1) then fs.map (·.1) else fs.map
      (·.1) ++ [x] := by
  induction fs with
  | nil => rfl
  | cons f fs ih =>
    rw [putField]
    by_cases hf : f.1 = x
    · simp [hf]
    · rw [if_neg hf, List.map_cons, ih, List.map_cons]
      by_cases hmem : x ∈ fs.map (·.1)
      · rw [if_pos hmem, if_pos (List.mem_cons_of_mem _ hmem)]
      · have hnew : x ∉ f.1 :: fs.map (·.1) := by
          rw [List.mem_cons]
          exact not_or.2 ⟨Ne.symm hf, hmem⟩
        rw [if_neg hmem, if_neg hnew, List.cons_append]

theorem nodup_foldl_putField (fs : List (String × α)) {gs : List (String × α)}
    (h : (gs.map (·.1)).Nodup) :
    ((fs.foldl (fun gs f => putField f.1 f.2 gs) gs).map (·.1)).Nodup := by
  induction fs generalizing gs with
  | nil => exact h
  | cons f fs ih =>
    refine ih ?_
    rw [names_putField]
    split
    · exact h
    · next hnew =>
      rw [List.nodup_append]
      refine ⟨h, by simp, ?_⟩
      rintro x hx y hy rfl
      rw [List.mem_singleton] at hy
      exact hnew (hy ▸ hx)

end

end ScriptLang
