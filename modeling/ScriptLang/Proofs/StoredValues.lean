import ScriptLang.Proofs.IndexAssignment
import ScriptLang.Proofs.PlainData
import ScriptLang.Proofs.WrittenDocuments

/-!
# Values that hold documents

A value holds a document when the heap has, down to the last part, what the document says: arrays
for lists, and objects with distinct texts as keys for fields, in the order of the document. A value
holds one document at most, and none if it has a cycle. The document of such a value is the one that
it holds (`documentOf_eq`), and the value made from a document holds it (`ofDocument_holds`), where
of fields with one name the last counts.
-/

namespace ScriptLang

open ScriptLang.Number ScriptLang.Action

variable {es : Entries} {fs : List (String × Json)} {js : List Json} {seen : List Loc} {d : Nat}

/-! ## Parts of documents -/

namespace Json

theorem depth_lt_list {j : Json} (h : j ∈ js) : j.depth < (Json.list js).depth := by
  rw [Json.depth]
  exact Nat.lt_succ_of_le (depthItems_le_iff.1 le_rfl j h)

theorem depth_lt_fields {f : String × Json} (h : f ∈ fs) : f.2.depth < (Json.fields fs).depth := by
  show f.2.depth < depthFields fs + 1
  exact Nat.lt_succ_of_le (depthFields_le_iff.1 le_rfl f h)

mutual

/-- A document in which of fields with one name the last counts, in the place of the first. -/
def merged : Json → Json
  | .list items => .list (mergedItems items)
  | .fields fs => .fields ((mergedValues fs).foldl (fun gs f => putField f.1 f.2 gs) [])
  | j => j

/-- List items, each merged. -/
def mergedItems : List Json → List Json
  | [] => []
  | j :: js => j.merged :: mergedItems js

/-- Fields with the value of each merged. -/
def mergedValues : List (String × Json) → List (String × Json)
  | [] => []
  | (k, j) :: fs => (k, j.merged) :: mergedValues fs

end

theorem mergedItems_eq (js : List Json) : mergedItems js = js.map merged := by
  induction js with
  | nil => rfl
  | cons j js ih => rw [mergedItems, ih, List.map_cons]

theorem mergedValues_eq (fs : List (String × Json)) :
    mergedValues fs = fs.map fun f => (f.1, f.2.merged) := by
  induction fs with
  | nil => rfl
  | cons f fs ih => rw [mergedValues.eq_def, List.map_cons, ← ih]

end Json

/-! ## Holding a document -/

/-- A value of a heap is made of what a document says. -/
inductive Heap.Holds (h : Heap) : Json → Value → Prop where
  | null : h.Holds .null .null
  | bool (b : Bool) : h.Holds (.bool b) (.bool b)
  | whole (n : Int) : h.Holds (.whole n) (.int n)
  | real (x : Float) : h.Holds (.real x) (.float x)
  | nan (tag : Nat) : h.Holds (.real notANumber) (.nan tag)
  | text (s : String) : h.Holds (.text s) (.text s)
  | list {l : Loc} {js : List Json} {xs : Array Value} (cell : h.cells[l]? = some (.array xs))
      (items : List.Forall₂ h.Holds js xs.toList) : h.Holds (.list js) (.array l)
  | fields {l : Loc} {fs : List (String × Json)} {es : Entries}
      (cell : h.cells[l]? = some (.object es)) (distinct : (fs.map (·.1)).Nodup)
      (keys : es.map (·.1) = fs.map fun f => Value.text f.1)
      (values : List.Forall₂ h.Holds (fs.map (·.2)) (es.map (·.2))) : h.Holds (.fields fs)
      (.object l)

/-- An entry of an object is a field: its key is the name, and its value holds the field's
document. -/
structure Heap.HoldsField (h : Heap) (f : String × Json) (e : Value × Value) : Prop where
  key : e.1 = .text f.1
  value : h.Holds f.2 e.2

theorem Heap.forall₂_holdsField {h : Heap} :
    List.Forall₂ h.HoldsField fs es ↔ es.map (·.1) = (fs.map fun f => Value.text f.1) ∧
      List.Forall₂ h.Holds (fs.map (·.2)) (es.map (·.2)) := by
  induction fs generalizing es with
  | nil => simp
  | cons f fs ih =>
    cases es with
    | nil => simp
    | cons e es =>
      rw [List.forall₂_cons, ih]
      simp only [List.map_cons, List.cons.injEq, List.forall₂_cons]
      constructor
      · rintro ⟨⟨hkey, hvalue⟩, hkeys, hvalues⟩
        exact ⟨⟨hkey, hkeys⟩, hvalue, hvalues⟩
      · rintro ⟨⟨hkey, hkeys⟩, hvalue, hvalues⟩
        exact ⟨⟨hkey, hvalue⟩, hkeys, hvalues⟩

theorem forall₂_imp_mem {α β : Type} {R S : α → β → Prop} {xs : List α} {ys : List β}
    (h : List.Forall₂ R xs ys) (himp : ∀ x ∈ xs, ∀ y, R x y → S x y) : List.Forall₂ S xs ys := by
  induction h with
  | nil => exact .nil
  | cons hxy _ ih =>
    rw [List.forall_mem_cons] at himp
    exact .cons (himp.1 _ hxy) (ih himp.2)

namespace Heap.Holds

variable {a b h : Heap} {j j' : Json} {v : Value} {l : Loc}

theorem of_fields (cell : h.cells[l]? = some (.object es))
    (distinct : (fs.map (·.1)).Nodup) (entries : List.Forall₂ h.HoldsField fs es) :
    h.Holds (.fields fs) (.object l) :=
  have hparts := Heap.forall₂_holdsField.1 entries
  .fields cell distinct hparts.1 hparts.2

theorem fields_inv (hv : h.Holds (.fields fs) v) :
    ∃ l es, v = .object l ∧ h.cells[l]? = some (.object es) ∧ (fs.map (·.1)).Nodup ∧
      List.Forall₂ h.HoldsField fs es := by
  cases hv with
  | fields cell distinct keys values =>
    exact ⟨_, _, rfl, cell, distinct, Heap.forall₂_holdsField.2 ⟨keys, values⟩⟩

theorem mono (hkeep : ∀ (l : Loc) (c : Cell), a.cells[l]? = some c → b.cells[l]? = some c)
    (hv : a.Holds j v) : b.Holds j v := by
  -- the parts of a document are less deep than the document
  induction hd : j.depth using Nat.strong_induction_on generalizing j v with
  | _ d ih =>
    cases hv with
    | null => exact .null
    | bool b => exact .bool b
    | whole n => exact .whole n
    | real x => exact .real x
    | nan tag => exact .nan tag
    | text s => exact .text s
    | list cell items =>
      refine .list (hkeep _ _ cell) (forall₂_imp_mem items fun j hj v hv => ?_)
      exact ih _ (hd ▸ Json.depth_lt_list hj) hv rfl
    | fields cell distinct keys values =>
      refine .fields (hkeep _ _ cell) distinct keys (forall₂_imp_mem values fun j hj v hv => ?_)
      obtain ⟨f, hf, rfl⟩ := List.mem_map.1 hj
      exact ih _ (hd ▸ Json.depth_lt_fields hf) hv rfl

theorem unique (hj : h.Holds j v) (hj' : h.Holds j' v) : j = j' := by
  induction hd : j.depth using Nat.strong_induction_on generalizing j j' v with
  | _ d ih =>
    have hitems {js js' : List Json} {vs : List Value} (hlt : ∀ j ∈ js, j.depth < d)
        (hjs : List.Forall₂ h.Holds js vs) (hjs' : List.Forall₂ h.Holds js' vs) : js = js' := by
      induction hjs generalizing js' with
      | nil =>
        cases hjs'
        rfl
      | cons hv _ ihs =>
        cases hjs' with
        | cons hv' hvs' =>
          rw [List.forall_mem_cons] at hlt
          rw [ih _ hlt.1 hv hv' rfl, ihs hlt.2 hvs']
    cases hj with
    | null | bool | whole | real | nan | text =>
      cases hj'
      rfl
    | list cell items =>
      cases hj' with
      | list cell' items' =>
        cases cell.symm.trans cell'
        rw [hitems (fun j hj => hd ▸ Json.depth_lt_list hj) items items']
    | @fields l fs es cell distinct keys values =>
      cases hj' with
      | @fields _ fs' es' cell' _ keys' values' =>
        cases cell.symm.trans cell'
        have hnames : fs.map (·.1) = fs'.map (·.1) := by
          have hinj : Function.Injective Value.text := fun s t hst => Value.text.inj hst
          apply hinj.list_map
          rw [List.map_map, List.map_map]
          exact keys.symm.trans keys'
        have hdocs : fs.map (·.2) = fs'.map (·.2) := by
          refine hitems (fun j hj => ?_) values values'
          obtain ⟨f, hf, rfl⟩ := List.mem_map.1 hj
          exact hd ▸ Json.depth_lt_fields hf
        rw [List.zip_of_prod hnames hdocs, ← List.zip_of_prod rfl rfl]

theorem merged_eq (hv : h.Holds j v) : j.merged = j := by
  induction hd : j.depth using Nat.strong_induction_on generalizing j v with
  | _ d ih =>
    cases hv with
    | null | bool | whole | real | nan | text => rfl
    | @list l js xs cell items =>
      have hsame : ∀ j ∈ js, j.merged = j := by
        intro j hj
        obtain ⟨v, -, hv⟩ := exists_of_forall₂_right items.flip hj
        exact ih _ (hd ▸ Json.depth_lt_list hj) hv rfl
      rw [Json.merged, Json.mergedItems_eq, List.map_congr_left hsame, List.map_id']
    | @fields l fs es cell distinct keys values =>
      have hsame : ∀ f ∈ fs, (f.1, f.2.merged) = f := by
        intro f hf
        obtain ⟨v, -, hv⟩ := exists_of_forall₂_right values.flip (List.mem_map_of_mem hf)
        rw [ih _ (hd ▸ Json.depth_lt_fields hf) hv rfl]
      rw [Json.merged, Json.mergedValues_eq, List.map_congr_left hsame, List.map_id',
        foldl_putField distinct]

end Heap.Holds

/-! ## Reading a document off a value -/

theorem Json.Fits.of_list (h : Json.Fits (d + 1) (.list js)) : ∀ j ∈ js, Json.Fits d j := by
  intro j hj
  have hsized := h.sized
  rw [Json.sized] at hsized
  exact ⟨Nat.le_of_lt_succ ((Json.depth_lt_list hj).trans_le h.depth),
    Json.sizedItems_iff.1 hsized j hj⟩

theorem Json.Fits.of_fields (h : Json.Fits (d + 1) (.fields fs)) : ∀ f ∈ fs, Json.Fits d f.2 := by
  intro f hf
  have hsized := h.sized
  rw [Json.sized] at hsized
  exact ⟨Nat.le_of_lt_succ ((Json.depth_lt_fields hf).trans_le h.depth),
    Json.sizedFields_iff.1 hsized f hf⟩

variable {h : Heap} {l : Loc} {j : Json} {v : Value}

/-- The document of an array is a list of the documents of its items. -/
theorem Heap.documentOf_array (hdoc : h.documentOf (d + 1) seen (.array l) = .ok j) :
    ∃ js, j = .list js ∧
      List.Forall₂ (fun v j => h.documentOf d (l :: seen) v = .ok j) (h.items l).toList js := by
  rw [documentOf] at hdoc
  split at hdoc
  · cases hdoc
  · obtain ⟨js, hjs, rfl⟩ := map_ok hdoc
    exact ⟨js, rfl, mapM_ok_iff.1 hjs⟩

theorem Heap.documentOf_object (hdoc : h.documentOf (d + 1) seen (.object l) = .ok j) :
    ∃ fs, j = .fields fs ∧
      List.Forall₂ (fun e f => fieldOf (h.documentOf d (l :: seen)) e = .ok f)
        (h.entries l) fs := by
  rw [documentOf] at hdoc
  split at hdoc
  · cases hdoc
  · obtain ⟨fs, hfs, rfl⟩ := map_ok hdoc
    exact ⟨fs, rfl, mapM_ok_iff.1 hfs⟩

/-- The container at a location holds a document that is deeper than `j`. -/
def Heap.HoldsDeeper (h : Heap) (j : Json) (l : Loc) : Prop :=
  ∃ j', (h.Holds j' (.array l) ∨ h.Holds j' (.object l)) ∧ j.depth < j'.depth

theorem Heap.HoldsDeeper.part {j' : Json} (hl : h.HoldsDeeper j l) (hlt : j'.depth < j.depth) :
    h.HoldsDeeper j' l := by
  obtain ⟨k, hk, hdepth⟩ := hl
  exact ⟨k, hk, hlt.trans hdepth⟩

theorem Heap.Holds.not_deeper (hv : h.Holds j v) (hl : v = .array l ∨ v = .object l) :
    ¬ h.HoldsDeeper j l := by
  rintro ⟨j', hj', hdepth⟩
  rcases hl with rfl | rfl
  · rcases hj' with hj' | hj'
    · rw [hv.unique hj'] at hdepth
      exact lt_irrefl _ hdepth
    · cases hv with
      | list cell items =>
        cases hj' with
        | fields cell' distinct keys values => cases cell.symm.trans cell'
  · rcases hj' with hj' | hj'
    · cases hv with
      | fields cell distinct keys values =>
        cases hj' with
        | list cell' items => cases cell.symm.trans cell'
    · rw [hv.unique hj'] at hdepth
      exact lt_irrefl _ hdepth

section

variable (hv : h.Holds j (.array l) ∨ h.Holds j (.object l)) (hseen : ∀ k ∈ seen, h.HoldsDeeper j k)

include hv hseen

theorem Heap.not_seen : ¬ seen.contains l = true := fun hl =>
  hv.elim (·.not_deeper (.inl rfl)) (·.not_deeper (.inr rfl)) (hseen l (List.contains_iff_mem.1 hl))

theorem Heap.holdsDeeper_cons {j' : Json} (hlt : j'.depth < j.depth) :
    ∀ k ∈ l :: seen, h.HoldsDeeper j' k :=
  List.forall_mem_cons.2 ⟨⟨j, hv, hlt⟩, fun k hk => (hseen k hk).part hlt⟩

end

theorem Heap.documentOf_eq (hv : h.Holds j v) (hfits : Json.Fits d j)
    (hseen : ∀ l ∈ seen, h.HoldsDeeper j l) : h.documentOf d seen v = .ok j := by
  induction d generalizing j v seen with
  | zero => exact absurd hfits.depth (Nat.not_le.2 (Json.depth_pos j))
  | succ d ih =>
    have hsize := hfits.sized
    rw [documentOf.eq_def]
    cases hv with
    | null | bool | real | nan | text => rfl
    | whole n =>
      rw [Json.sized] at hsize
      exact if_pos hsize
    | @list l js xs cell items =>
      have hv : h.Holds (.list js) (.array l) := .list cell items
      have hitems : xs.toList.mapM (h.documentOf d (l :: seen)) = .ok js := by
        refine mapM_ok_iff.2 (forall₂_imp_mem items fun j hj v hheld => ?_).flip
        exact ih hheld (hfits.of_list j hj)
          (holdsDeeper_cons (.inl hv) hseen (Json.depth_lt_list hj))
      dsimp only
      rw [if_neg (not_seen (.inl hv) hseen), Heap.items_eq cell, hitems]
      rfl
    | @fields l fs es cell distinct keys values =>
      have hv : h.Holds (.fields fs) (.object l) := .fields cell distinct keys values
      have hentries : es.mapM (fieldOf (h.documentOf d (l :: seen))) = .ok fs := by
        have hheld := Heap.forall₂_holdsField.2 ⟨keys, values⟩
        refine mapM_ok_iff.2 (forall₂_imp_mem hheld fun f hf e he => ?_).flip
        refine fieldOf_ok.2 ⟨by rw [he.key]; rfl, ih he.value (hfits.of_fields f hf) ?_⟩
        exact holdsDeeper_cons (.inr hv) hseen (Json.depth_lt_fields hf)
      dsimp only
      rw [if_neg (not_seen (.inr hv) hseen), Heap.entries_eq cell, hentries]
      rfl

/-- Lists that correspond to one list, item by item and in one way only, are equal. -/
theorem eq_of_forall₂ {α β : Type} {R : α → β → Prop} {S : β → α → Prop}
    (hone : ∀ x y x', R x y → S y x' → x' = x) {xs xs' : List α} {ys : List β}
    (hR : List.Forall₂ R xs ys) (hS : List.Forall₂ S ys xs') : xs' = xs := by
  induction hR generalizing xs' with
  | nil =>
    cases hS
    rfl
  | cons hxy _ ih =>
    cases hS with
    | cons hyx hS => rw [hone _ _ _ hxy hyx, ih hS]

theorem Heap.Holds.eq_of_documentOf {j' : Json} (hv : h.Holds j v)
    (hdoc : h.documentOf d seen v = .ok j') : j' = j := by
  induction d generalizing j j' v seen with
  | zero => cases hdoc
  | succ d ih =>
    cases hv with
    | null | bool | real | nan | text =>
      cases hdoc
      rfl
    | whole n =>
      rw [documentOf] at hdoc
      split at hdoc
      · cases hdoc
        rfl
      · cases hdoc
    | @list l js xs cell items =>
      obtain ⟨js', rfl, hdocs⟩ := Heap.documentOf_array hdoc
      rw [Heap.items_eq cell] at hdocs
      have hsame : js' = js := by
        refine eq_of_forall₂ ?_ items hdocs
        exact fun j v j' hv hdoc => ih hv hdoc
      rw [hsame]
    | @fields l fs es cell distinct keys values =>
      obtain ⟨fs', rfl, hdocs⟩ := Heap.documentOf_object hdoc
      rw [Heap.entries_eq cell] at hdocs
      have hheld := Heap.forall₂_holdsField.2 ⟨keys, values⟩
      have hsame : fs' = fs := by
        refine eq_of_forall₂ (fun f e f' he hfield => ?_) hheld hdocs
        obtain ⟨hname, hvalue⟩ := fieldOf_ok.1 hfield
        rw [he.key] at hname
        exact Prod.ext (Except.ok.inj hname).symm (ih he.value hvalue)
      rw [hsame]

/-! ## Making a value from a document -/

/-- The change from one setting to another in which cells are added, and perhaps floats that are not
numbers, and nothing else. -/
structure Setting.Grows (s s' : Setting) : Prop where
  cells : ∀ (l : Loc) (c : Cell), s.heap.cells[l]? = some c → s'.heap.cells[l]? = some c
  rest : s' = { s with heap := s'.heap, nans := s'.nans }

namespace Setting.Grows

variable {s s₁ s₂ : Setting}

theorem refl (s : Setting) : s.Grows s :=
  ⟨fun _ _ h => h, rfl⟩

theorem trans (h₁ : s.Grows s₁) (h₂ : s₁.Grows s₂) : s.Grows s₂ where
  cells l c hc := h₂.cells l c (h₁.cells l c hc)
  rest := by
    rw [h₂.rest, h₁.rest]

theorem push (s : Setting) (c : Cell) :
    s.Grows { s with heap := { s.heap with cells := s.heap.cells.push c } } where
  cells l c' hc := by
    have hl : l < s.heap.cells.size := (Array.getElem?_eq_some_iff.1 hc).1
    exact (Effect.getElem?_push hl).trans hc
  rest := rfl

end Setting.Grows

theorem Heap.HoldsField.mono {a b : Heap} {f : String × Json} {e : Value × Value}
    (hkeep : ∀ (l : Loc) (c : Cell), a.cells[l]? = some c → b.cells[l]? = some c)
    (he : a.HoldsField f e) : b.HoldsField f e :=
  ⟨he.key, he.value.mono hkeep⟩

theorem Heap.forall₂_put {h : Heap} {gs : List (String × Json)}
    (hes : List.Forall₂ h.HoldsField gs es) (name : String) {j : Json} {v : Value}
    (hv : h.Holds j v) :
    List.Forall₂ h.HoldsField (putField name j gs) (es.put (.text name) v) := by
  induction hes with
  | nil => exact .cons ⟨rfl, hv⟩ .nil
  | @cons g e gs es hge hrest ih =>
    rw [putField, Entries.put]
    by_cases hname : g.1 = name
    · have hsame : e.1.sameKey (.text name) = true := Value.sameKey_text.2 (by rw [hge.key, hname])
      rw [if_pos hname, if_pos hsame]
      exact .cons ⟨by rw [hge.key, hname], hv⟩ hrest
    · have hdiff : ¬ e.1.sameKey (.text name) = true := by
        rw [Value.sameKey_text, hge.key]
        exact fun heq => hname (Value.text.inj heq)
      rw [if_neg hname, if_neg hdiff]
      exact .cons hge ih

theorem eq_notANumber {x : Float} (h : x.isNaN = true) : x = notANumber := by
  rw [Float.isNaN_eq_decide_eq_nan, decide_eq_true_eq] at h
  rw [h]
  decide +kernel

/-- A value is made from a document: new cells hold it, and nothing else changes. -/
def Action.Makes (j : Json) : Prop :=
  ∀ s : Setting, ∃ v s', ofDocument j s = .ok v s' ∧ s.Grows s' ∧ s'.heap.Holds j.merged v

theorem ofItems_holds (h : ∀ j ∈ js, Makes j) (s : Setting) :
    ∃ vs s', ofItems js s = .ok vs s' ∧ s.Grows s' ∧
      List.Forall₂ s'.heap.Holds (js.map Json.merged) vs := by
  induction js generalizing s with
  | nil => exact ⟨[], s, rfl, .refl s, .nil⟩
  | cons j js ih =>
    rw [List.forall_mem_cons] at h
    obtain ⟨v, s₁, hv, hgrows₁, hheld⟩ := h.1 s
    obtain ⟨vs, s₂, hvs, hgrows₂, hitems⟩ := ih h.2 s₁
    refine ⟨v :: vs, s₂, ?_, hgrows₁.trans hgrows₂, .cons (hheld.mono hgrows₂.cells) hitems⟩
    rw [ofItems, bind_ok hv, bind_ok hvs]
    rfl

theorem ofFields_holds (h : ∀ f ∈ fs, Makes f.2) (s : Setting)
    {gs : List (String × Json)} (hes : List.Forall₂ s.heap.HoldsField gs es) :
    ∃ es' s', ofFields fs es s = .ok es' s' ∧ s.Grows s' ∧ List.Forall₂ s'.heap.HoldsField
      ((Json.mergedValues fs).foldl (fun gs f => putField f.1 f.2 gs) gs) es' := by
  induction fs generalizing s gs es with
  | nil => exact ⟨es, s, rfl, .refl s, hes⟩
  | cons f fs ih =>
    obtain ⟨k, j⟩ := f
    rw [List.forall_mem_cons] at h
    obtain ⟨v, s₁, hv, hgrows₁, hheld⟩ := h.1 s
    have hes₁ := hes.imp fun _ _ he => Heap.HoldsField.mono hgrows₁.cells he
    obtain ⟨es', s₂, hes', hgrows₂, hfields⟩ := ih h.2 s₁ (Heap.forall₂_put hes₁ k hheld)
    refine ⟨es', s₂, ?_, hgrows₁.trans hgrows₂, hfields⟩
    rw [ofFields, bind_ok hv, hes']

theorem ofDocument_holds (j : Json) : Makes j := by
  induction hd : j.depth using Nat.strong_induction_on generalizing j with
  | _ d ih =>
    intro s
    cases j with
    | null => exact ⟨.null, s, rfl, .refl s, .null⟩
    | bool b => exact ⟨.bool b, s, rfl, .refl s, .bool b⟩
    | whole n => exact ⟨.int n, s, rfl, .refl s, .whole n⟩
    | text t => exact ⟨.text t, s, rfl, .refl s, .text t⟩
    | real x =>
      rw [show (Json.real x).merged = .real x from rfl, ofDocument, Action.real]
      by_cases hx : x.isNaN = true
      · have hnan : x = notANumber := eq_notANumber hx
        rw [if_pos hx]
        exact ⟨.nan s.nans, _, rfl, ⟨fun _ _ h => h, rfl⟩, hnan ▸ .nan s.nans⟩
      · rw [if_neg hx]
        exact ⟨.float x, s, rfl, .refl s, .real x⟩
    | list js =>
      have hparts : ∀ j ∈ js, Makes j := fun j hj => ih _ (hd ▸ Json.depth_lt_list hj) j rfl
      obtain ⟨vs, s₁, hvs, hgrows, hitems⟩ := ofItems_holds hparts s
      refine ⟨.array s₁.heap.cells.size, _, ?_, hgrows.trans (.push s₁ (.array vs.toArray)), ?_⟩
      · rw [ofDocument, bind_ok hvs]
        rfl
      · rw [Json.merged, Json.mergedItems_eq]
        have hcell : (s₁.heap.cells.push (.array vs.toArray))[s₁.heap.cells.size]? =
            some (.array vs.toArray) := by simp
        refine .list hcell ?_
        exact hitems.imp fun _ _ hv => hv.mono (Setting.Grows.push s₁ _).cells
    | fields fs =>
      have hparts : ∀ f ∈ fs, Makes f.2 := fun f hf => ih _ (hd ▸ Json.depth_lt_fields hf) _ rfl
      have hempty : List.Forall₂ s.heap.HoldsField [] [] := .nil
      obtain ⟨es, s₁, hes, hgrows, hentries⟩ := ofFields_holds hparts s hempty
      refine ⟨.object s₁.heap.cells.size, _, ?_, hgrows.trans (.push s₁ (.object es)), ?_⟩
      · rw [ofDocument, bind_ok hes]
        rfl
      · rw [Json.merged]
        have hcell : (s₁.heap.cells.push (.object es))[s₁.heap.cells.size]? =
            some (.object es) := by
          simp
        refine .of_fields hcell (nodup_foldl_putField _ (by simp)) ?_
        exact hentries.imp fun _ _ he => he.mono (Setting.Grows.push s₁ _).cells

/-- A text is read as a document and made into a value that holds it, or that fails and nothing
changes. -/
theorem readJson_cases (text : String) (s : Setting) :
    (∃ f, readJson text s = .error (.fault f) s) ∨
      ∃ j v s', Json.read text = .ok j ∧ readJson text s = .ok v s' ∧ s.Grows s' ∧
        s'.heap.Holds j.merged v := by
  rw [readJson]
  cases hread : Json.read text with
  | error e =>
    left
    cases e <;> exact ⟨_, rfl⟩
  | ok j =>
    right
    obtain ⟨v, s', hv, hgrows, hheld⟩ := ofDocument_holds j s
    exact ⟨j, v, s', rfl, hv, hgrows, hheld⟩

end ScriptLang
