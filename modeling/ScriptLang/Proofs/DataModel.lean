import ScriptLang.Proofs.CoreCalls
import ScriptLang.Proofs.IndexAssignment
import ScriptLang.Proofs.PlainEvaluation
import ScriptLang.Proofs.Reruns

/-!
# The data model

Programs without packages that do not use `zip`, `fromEntries` or `countBy` have two kinds of
containers, arrays and objects, and the keys of all their objects are texts. The three functions are
left out because they make what the model has not: `zip` makes tuples, the other two make objects
with keys of any kind, which an index, being made a text, misses.
-/

namespace ScriptLang

open ScriptLang.Action

variable {l : Loc} {i : Nat} {v : Value} {w : World}

/-! ## Runs -/

/-- A world with plain data only. -/
def World.Plain (w : World) : Prop :=
  w.heap.Fits true ∧ w.code.Fits true

theorem Policy.Ensures.final_plain {α : Type} {x : Action α} {Q : α → Prop}
    (h : Upholds true none x Q) (hw : w.Plain) : (x.final w).Plain :=
  (h.final hw).1

theorem startingVariables_eq {x : String} (h : startingVariables[x]? = some v) :
    ∃ f ∈ CoreFn.all, f.name = x ∧ v = .native (.core f) := by
  have fold (fs : List CoreFn) (m : Std.HashMap String Value)
      (hv : (fs.foldl (fun m f => m.insert f.name (.native (.core f))) m)[x]? = some v) :
      (∃ f ∈ fs, f.name = x ∧ v = .native (.core f)) ∨ m[x]? = some v := by
    induction fs generalizing m with
    | nil => exact .inr hv
    | cons f fs ih =>
      rcases ih _ hv with ⟨g, hg, hgx⟩ | hv
      · exact .inl ⟨g, List.mem_cons_of_mem _ hg, hgx⟩
      · rw [Std.HashMap.getElem?_insert] at hv
        split at hv
        · next hx =>
          cases hv
          exact .inl ⟨f, List.mem_cons_self, by simpa using hx, rfl⟩
        · exact .inr hv
  rcases fold CoreFn.all {} h with hf | hempty
  · exact hf
  · simp at hempty

theorem World.begin_plain (w : World) : w.begin.Plain := by
  refine ⟨nofun, w.begin_obeys _, fun s hs x v hv => ?_, nofun, fun key v hv => ?_⟩
  · obtain rfl : s = { vars := startingVariables } := by simpa [World.begin] using hs
    obtain ⟨f, hf, rfl, rfl⟩ := startingVariables_eq hv
    cases hraw : f.isRaw with
    | false => exact .inl fun _ => by simp [Value.isPlain, hraw]
    | true =>
      refine .inr ⟨?_, f, rfl⟩
      have hany : (CoreFn.all.any fun g => g.isRaw && g.name == f.name) = true :=
        List.any_eq_true.2 ⟨f, hf, by simp [hraw]⟩
      simp [Licence.plain, Licence.reading, hany]
  · simp [World.begin, Code.given?] at hv

theorem runStatement_upholds {s : Stmt} (hs : s.obeys (.plain true) false = true)
    (scope : ScopeId) : Upholds true none (runStatement scope s) (Value.Fits true) := by
  refine .bind .code fun c _ => ?_
  have hobeys : ((Numbering.stmt s) c.sites).1.obeys (.plain true) false = true :=
    (Numbering.settles_cases.all_stmt s false c.sites).2.trans hs
  refine .bind (.modifyCode fun c hc => ?_) fun _ _ =>
    (Upheld.all true evaluationLimit).execute scope false _ hobeys
  exact { hc with obeys := ⟨hc.obeys.functions, hc.obeys.classes⟩ }

theorem runProgram_upholds {p : Program} (hincludes : p.includes = [])
    (hp : p.obeys (.plain true) = true) : Upholds true none (runProgram p) (Value.Fits true) := by
  have none : Upholds true none (loadIncludes includeLimit p.includes) := by
    rw [hincludes, includeLimit, loadIncludes]
    exact .pure trivial
  refine none.seq <| .foldlM (fun _ => rfl) fun s hs _ _ => ?_
  exact runStatement_upholds (stmtsObey_iff.1 hp s hs) globalScope

/-! ## Values that a program can reach -/

/-- The values that a program can reach from its variables, those of every scope: what they hold and
what they are made of. -/
inductive World.Reaches (w : World) : Value → Prop
  | held {s : Scope} {x : String} {v : Value} (hs : s ∈ w.code.scopes)
      (hv : s.vars[x]? = some v) : w.Reaches v
  | item {l : Loc} {v : Value} (h : w.Reaches (.array l)) (hv : v ∈ w.heap.items l) : w.Reaches v
  | part {xs : List Value} {v : Value} (h : w.Reaches (.tuple xs)) (hv : v ∈ xs) : w.Reaches v
  | key {l : Loc} {e : Value × Value} (h : w.Reaches (.object l)) (he : e ∈ w.heap.entries l) :
      w.Reaches e.1
  | entry {l : Loc} {e : Value × Value} (h : w.Reaches (.object l)) (he : e ∈ w.heap.entries l) :
      w.Reaches e.2
  | property {l : Loc} {p : String × Value} (h : w.Reaches (.instance l))
      (hp : p ∈ (w.heap.instanceAt l).2) : w.Reaches p.2
  | owner {l : Loc} (h : w.Reaches (.instance l)) : w.Reaches (.class (w.heap.instanceAt l).1)
  | parent {l k : Loc} (h : w.Reaches (.class l)) (hk : (w.code.classAt l).parent = some k) :
      w.Reaches (.class k)
  | initial {l : Loc} {p : PropertyRef} (h : w.Reaches (.class l))
      (hp : p ∈ (w.code.classAt l).properties) : w.Reaches (w.code.propertyValue p)
  | ingredient {l : Loc} {d : Derived} {v : Value} (h : w.Reaches (.derived l))
      (hd : w.heap.derivedAt? l = some d) (hv : v ∈ d.parts) : w.Reaches v
  | receiver {v : Value} {name : String} (h : w.Reaches (.bound v name)) : w.Reaches v

/-- In a world of plain data a program reaches plain values only, besides the functions that every
program has. -/
theorem World.Plain.of_reaches (hw : w.Plain) (h : w.Reaches v) :
    v.isPlain = true ∨ ∃ f, v = .native (.core f) := by
  induction h with
  | held hs hv =>
    rcases hw.2.vars _ hs _ _ hv with hfits | ⟨-, hraw⟩
    · exact .inl (hfits rfl)
    · exact .inr hraw
  | item _ hv => exact .inl (hw.1.items _ _ hv rfl)
  | part _ _ ih =>
    rcases ih with hplain | ⟨f, heq⟩ <;> contradiction
  | key _ he => exact .inl ((hw.1.entries _).keys _ (List.mem_map_of_mem he) rfl)
  | entry _ he => exact .inl ((hw.1.entries _).values _ (List.mem_map_of_mem he) rfl)
  | property _ hp => exact .inl (hw.1.instanceAt _ _ hp rfl)
  | owner => exact .inl rfl
  | parent => exact .inl rfl
  | initial _ hp => exact .inl (hw.2.propertyValue (hw.2.classAt _ _ hp) rfl)
  | ingredient _ hd hv => exact .inl ((hw.1.derivedAt? hd).parts _ hv rfl)
  | receiver _ ih =>
    rcases ih with hplain | ⟨f, heq⟩
    · exact .inl hplain
    · contradiction

/-! ## Keys and entries -/

theorem Heap.Evolves.items_eq {a b : Heap} (h : a.Evolves id none b) (hl : l < a.cells.size) :
    b.items l = a.items l := by
  have hsame : b.cells[l]? = a.cells[l]? := by simpa using h.same l hl nofun
  rw [Heap.items, Heap.items, hsame]

/-- The arrays that are made for the entries of an object, one after the other. -/
theorem mapM_pairs (es : Entries) (s : Setting) : ∃ (ps : List Value) (s₁ : Setting),
    (es.mapM fun e => arrayOf [e.1, e.2] : Routine (List Value)) s = .ok ps s₁ ∧
    s.heap.Evolves id none s₁.heap ∧ ps.length = es.length ∧
    ∀ (i : Nat) (e : Value × Value), es[i]? = some e →
      ∃ c, ps[i]? = some (.array c) ∧ s₁.heap.items c = #[e.1, e.2] := by
  induction es generalizing s with
  | nil => exact ⟨[], s, rfl, .refl _, rfl, by simp⟩
  | cons e es ih =>
    let s' : Setting :=
      { s with heap := { s.heap with cells := s.heap.cells.push (.array #[e.1, e.2]) } }
    obtain ⟨ps, s₁, hrun, hevolves, hlength, hpairs⟩ := ih s'
    have hfirst : (arrayOf [e.1, e.2] : Routine Value) s = .ok (.array s.heap.cells.size) s' := rfl
    refine ⟨.array s.heap.cells.size :: ps, s₁, ?_, .trans (.push _) hevolves, by simp [hlength],
      ?_⟩
    · rw [List.mapM_cons, bind_ok hfirst, bind_ok hrun]
      rfl
    · rintro (_ | i) e' he'
      · -- the first array is not touched by making the others
        cases he'
        refine ⟨s.heap.cells.size, rfl, ?_⟩
        rw [hevolves.items_eq (by simp [s'])]
        simp [Heap.items, s']
      · exact hpairs i e' he'

theorem apply_keys (d : Nat) (v : Value) :
    apply (d + 1) (.native (.core .keys)) [v] = (Library.keys v : Action Value) := by
  rw [apply]
  rfl

theorem apply_entries (d : Nat) (v : Value) :
    apply (d + 1) (.native (.core .entries)) [v] = (Library.entryPairs v : Action Value) := by
  rw [apply]
  rfl

theorem keys_ok (l : Loc) (w : World) :
    ∃ a w₁, (Library.keys (.object l) : Action Value) w = .ok (.array a) w₁ ∧
    w₁.heap.items a = ((w.heap.entries l).map (·.1)).toArray := by
  refine ⟨w.heap.cells.size, _, rfl, ?_⟩
  simp [Heap.items]

theorem entryPairs_ok (l : Loc) (w : World) : ∃ b w₂,
    (Library.entryPairs (.object l) : Action Value) w = .ok (.array b) w₂ ∧
    (w₂.heap.items b).size = (w.heap.entries l).length ∧
    ∀ (i : Nat) (e : Value × Value), (w.heap.entries l)[i]? = some e →
      ∃ c, (w₂.heap.items b)[i]? = some (.array c) ∧ w₂.heap.items c = #[e.1, e.2] := by
  obtain ⟨ps, s₁, hrun, -, hlength, hpairs⟩ := mapM_pairs (w.heap.entries l) w.toSetting
  have hentries : (Library.entryPairs (.object l) : Routine Value) w.toSetting =
      (arrayOf ps : Routine Value) s₁ := bind_ok hrun
  let h₂ : Heap := { s₁.heap with cells := s₁.heap.cells.push (.array ps.toArray) }
  have hnew : h₂.items s₁.heap.cells.size = ps.toArray := by simp [Heap.items, h₂]
  refine ⟨s₁.heap.cells.size, { s₁ with code := w.code, heap := h₂ },
    Routine.perform_ok hentries, ?_, ?_⟩
  · rw [hnew, List.size_toArray, hlength]
  · intro i e he
    obtain ⟨c, hc, hitems⟩ := hpairs i e he
    refine ⟨c, by rw [hnew]; simpa using hc, ?_⟩
    have hold : c < s₁.heap.cells.size := by
      refine Nat.lt_of_not_le fun hle => ?_
      rw [Heap.items, Array.getElem?_eq_none hle] at hitems
      simp at hitems
    exact (Heap.Evolves.items_eq (.push _) hold).trans hitems

theorem indexValue_entry {s : Setting} (h : Entries.Plain (s.heap.entries l))
    {e : Value × Value} (he : e ∈ s.heap.entries l) : indexValue (.object l) e.1 s = .ok e.2 s := by
  have hget := h.get?_of_mem he
  obtain ⟨k, hk⟩ := h.texts e he
  rw [hk] at hget ⊢
  show ((text (.text k)) >>= fun key => fieldOr l (.text key) .null) s = _
  rw [bind_ok (text_ok rfl)]
  show EStateM.Result.ok (((s.heap.entries l).get? (.text k)).getD .null) s = _
  rw [hget]
  rfl

/-! ## Sequences -/

/-- The items of a sequence can be read by their indexes. -/
def Setting.Indexes (s : Setting) (v : Value) : Prop :=
  ∃ xs, iterate v s = .ok xs s ∧
    ∀ (i : Nat) (x : Value), xs[i]? = some x → (i : Int) < indexLimit →
    indexValue v (.int i) s = .ok x s

theorem small_nat (h : (i : Int) < indexLimit) :
    ((i : Int) < indexLimit && -indexLimit ≤ (i : Int)) = true := by
  have hlow : -indexLimit ≤ (i : Int) := by
    rw [indexLimit]
    omega
  simp [h, hlow]

theorem place?_nat {size : Nat} (h : i < size) : place? size (i : Int) = some i := by
  have hpos : ¬ (i : Int) < 0 := by omega
  have hsize : 0 ≤ (i : Int) ∧ (i : Int) < size := by omega
  simp only [place?, if_neg hpos, if_pos hsize, Int.toNat_natCast]

theorem indexes_text (s : Setting) (t : String) : s.Indexes (.text t) := by
  refine ⟨_, rfl, fun i x hx hsmall => indexFault_ok ?_⟩
  rw [List.getElem?_map] at hx
  obtain ⟨c, hc, rfl⟩ := Option.map_eq_some_iff.1 hx
  have hi : i < t.toList.length := (List.getElem?_eq_some_iff.1 hc).1
  have hplace : placeIn "str" t.toList.length (.int i) s = .ok i s :=
    placeIn_ok (by rw [smallIndex, if_pos (small_nat hsmall)]) (place?_nat hi)
  refine (bind_ok (toInt_ok rfl)).trans ((bind_ok hplace).trans ?_)
  have hone : (t.toList.drop i).take 1 = [c] := by
    rw [List.drop_eq_getElem_cons hi, List.take_succ_cons, List.take_zero,
      (List.getElem?_eq_some_iff.1 hc).2]
  rw [hone]
  rfl

theorem indexes_array (s : Setting) (l : Loc) : s.Indexes (.array l) := by
  refine ⟨_, rfl, fun i x hx hsmall => ?_⟩
  have hx : (s.heap.items l)[i]? = some x := by simpa using hx
  have hi : i < (s.heap.items l).size := (Array.getElem?_eq_some_iff.1 hx).1
  have hslot : s.slot? (.array l) (.int i) = some (.item l i) := by
    have hint : (Value.int i).toInt = .ok (i : Int) := rfl
    simp only [Setting.slot?, hint]
    rw [if_pos (small_nat hsmall), place?_nat hi]
    rfl
  obtain ⟨v, hv, hread⟩ := indexValue_slot hslot
  cases hx.symm.trans hv
  exact hread

/-! ## The data model -/

/-- The values that hold others by their places or keys. -/
def Value.isContainer : Value → Bool
  | .bytes _ | .tuple _ | .array _ | .object _ => true
  | _ => false

theorem indexes_of_isPlain (hv : v.isPlain = true) (hseq : v.isSequence = true)
    (s : Setting) : s.Indexes v := by
  cases v with
  | text t => exact indexes_text s t
  | array l => exact indexes_array s l
  | _ => contradiction

/-- The functions `keys` and `entries` give the keys of an object in the same order, and its index
gives what `entries` pairs with a key. -/
def World.PairsUp (w : World) (l : Loc) (d : Nat) : Prop :=
  ∃ a w₁ b w₂,
    apply (d + 1) (.native (.core .keys)) [.object l] w = .ok (.array a) w₁ ∧
    apply (d + 1) (.native (.core .entries)) [.object l] w = .ok (.array b) w₂ ∧
    w₁.heap.items a = ((w.heap.entries l).map (·.1)).toArray ∧
    (w₂.heap.items b).size = (w₁.heap.items a).size ∧
    ∀ (i : Nat) (k : Value), (w₁.heap.items a)[i]? = some k → ∃ c v,
      (w₂.heap.items b)[i]? = some (.array c) ∧ w₂.heap.items c = #[k, v] ∧
      ∀ scope o e, evaluate d scope o w = .ok (.object l) w → evaluate d scope e w = .ok k w →
        evaluate (d + 1) scope (.index o e) w = .ok v w

theorem World.Plain.pairsUp (hw : w.Plain) (l : Loc) (d : Nat) : w.PairsUp l d := by
  obtain ⟨a, w₁, hkeys, hitems⟩ := keys_ok l w
  obtain ⟨b, w₂, hentries, hsize, hpairs⟩ := entryPairs_ok l w
  refine ⟨a, w₁, b, w₂, ?_, ?_, hitems, by rw [hsize, hitems]; simp, fun i k hk => ?_⟩
  · rw [apply_keys]
    exact hkeys
  · rw [apply_entries]
    exact hentries
  · rw [hitems, List.getElem?_toArray, List.getElem?_map] at hk
    obtain ⟨e, he, rfl⟩ := Option.map_eq_some_iff.1 hk
    obtain ⟨c, hc, hpair⟩ := hpairs i e he
    refine ⟨c, e.2, hc, hpair, fun scope o i ho hi => ?_⟩
    have hread : indexValue (.object l) e.1 w.toSetting = .ok e.2 w.toSetting :=
      indexValue_entry (hw.1.entries l rfl) (List.mem_of_getElem? he)
    rw [evaluate]
    exact (bind_ok ho).trans ((bind_ok hi).trans (Routine.perform_ok hread))

/-- What holds of the data of a world of plain data. -/
structure World.DataModel (w : World) : Prop where
  /-- the containers that a program can reach are arrays and objects -/
  containers : ∀ v, w.Reaches v → v.isContainer = true → (∃ l, v = .array l) ∨ ∃ l, v = .object l
  /-- the keys of objects are texts, and no key occurs twice -/
  keys : ∀ l, w.Reaches (.object l) →
    (∀ e ∈ w.heap.entries l, ∃ k, e.1 = .text k) ∧ ((w.heap.entries l).map (·.1)).Nodup
  /-- the index of an object gives what is paired with a key -/
  pairs : ∀ l, w.Reaches (.object l) → ∀ d, w.PairsUp l d
  /-- the sequences in an array that a function gives can be indexed -/
  sequences : ∀ d f args l w', f.isRaw = false → (∀ v ∈ args, v.isPlain = true) →
    apply d (.native (.core f)) args w = .ok (.array l) w' →
    ∀ v ∈ w'.heap.items l, v.isSequence = true → w'.Indexes v

theorem World.Plain.dataModel (hw : w.Plain) : w.DataModel where
  containers v h hcontainer := by
    rcases hw.of_reaches h with hplain | ⟨f, rfl⟩
    · cases v with
      | array l => exact .inl ⟨l, rfl⟩
      | object l => exact .inr ⟨l, rfl⟩
      | _ => contradiction
    · contradiction
  keys l _ := ⟨(hw.1.entries l rfl).texts, (hw.1.entries l rfl).distinct⟩
  pairs l _ d := hw.pairsUp l d
  sequences d f args l w' hf hargs hrun v hv hseq := by
    have happly := (Upheld.all true d).apply (.native (.core f)) args
      (fun _ => by simp [Value.isPlain, hf]) fun v hv _ => hargs v hv
    have hends := happly.ends w hw
    rw [hrun] at hends
    exact indexes_of_isPlain (hends.1.1.items l v hv rfl) hseq _

/-- Programs that read none of `zip`, `fromEntries` and `countBy` and include nothing keep the data
model: a session starts with plain data, every evaluation, statement and call keeps the data plain,
however it ends, and plain data has the model. -/
theorem plain_programs_keep_the_data_model (w₀ : World) :
    w₀.begin.Plain ∧
    (∀ w : World, w.Plain → w.DataModel ∧
      (∀ d scope e, e.obeys (.plain true) = true → ((evaluate d scope e).final w).Plain) ∧
      (∀ d scope inLoop s, s.obeys (.plain true) inLoop = true →
        ((execute d scope s).final w).Plain) ∧
      ∀ d f args, f.isPlain = true → (∀ v ∈ args, v.isPlain = true) →
        ((apply d f args).final w).Plain) ∧
    ∀ p : Program, p.includes = [] → p.obeys (.plain true) = true →
      ((runProgram p).final w₀.begin).DataModel := by
  refine ⟨w₀.begin_plain, fun w hw => ⟨hw.dataModel, ?_, ?_, ?_⟩, fun p hincludes hp => ?_⟩
  · exact fun d scope e he => ((Upheld.all true d).evaluate scope e he).final_plain hw
  · exact fun d scope inLoop s hs => ((Upheld.all true d).execute scope inLoop s hs).final_plain hw
  · exact fun d f args hf hargs =>
      ((Upheld.all true d).apply f args (fun _ => hf) fun v hv _ => hargs v hv).final_plain hw
  · exact ((runProgram_upholds hincludes hp).final_plain w₀.begin_plain).dataModel

/-- A program that groups numbers by themselves. -/
def groupedNumbers : Program where
  includes := []
  statements :=
    [.expr (.assign "g" (.call (.name "groupBy")
      [.array [.literal (.whole 1), .literal (.whole 1), .literal (.whole 2)], .name "identity"]))]

/-- Groups of numbers have texts as keys. A call in a world of plain data leaves it plain. -/
theorem groupedNumbers_keep_the_data_model :
    groupedNumbers.includes = [] ∧ groupedNumbers.obeys (.plain true) = true ∧
    ((runProgram groupedNumbers).final (World.begin {})).DataModel ∧
    ((apply 9 (.native (.core .split)) [.text "a b", .text " "]).final (World.begin {})).Plain := by
  obtain ⟨hplain, hsteps, hprograms⟩ := plain_programs_keep_the_data_model {}
  have hobeys : groupedNumbers.obeys (.plain true) = true := by decide
  obtain ⟨-, -, -, hcall⟩ := hsteps _ hplain
  exact ⟨rfl, hobeys, hprograms _ rfl hobeys, hcall 9 _ _ rfl (by simp [Value.isPlain])⟩

/-! ## Counts -/

/-- The count of a single item has what the function gives for it as its key, of whatever kind. -/
theorem countBy_single {call : Caller} {f key : Value}
    (hitems : w.heap.items l = #[v]) (hcall : call f [v] w = .ok key w)
    (hkey : key.unhashable? = none) :
    Library.countBy call (.array l) f w = (newObject [(key, .int 1)] : Action Value) w := by
  have hhash : (hashable key : Action Unit) w = .ok () w := by
    unfold hashable
    rw [hkey]
    rfl
  unfold Library.countBy
  refine bind_ok (a := [(key, Value.int 1)]) ?_
  obtain ⟨n, hrounds⟩ := foldItems_eq (w := w) (l := l) ([] : Entries) (Library.countStep call f)
  rw [hitems, List.size_toArray, List.length_singleton, Nat.add_comm 1 n] at hrounds
  refine hrounds.trans ?_
  refine Eq.trans (foldItemsFrom_yield (v := v) ?_ ((bind_ok hcall).trans (bind_ok hhash))) ?_
  · simp [hitems]
  · exact foldItemsFrom_end (by simp [hitems])

/-- A world with an array of one number. -/
def oneNumber : World where
  heap := { cells := #[.array #[.int 1]] }

/-- A number that is counted is a key that is no text, and the index of the object misses it. -/
theorem counted_number_not_found :
    ∃ w', apply 9 (.native (.core .countBy)) [.array 0, .native (.core .identity)] oneNumber =
        .ok (.object 1) w' ∧
      w'.heap.entries 1 = [(.int 1, .int 1)] ∧
      indexValue (.object 1) (.int 1) w'.toSetting = .ok .null w'.toSetting := by
  let counts : Entries := [(.int 1, .int 1)]
  refine ⟨oneNumber.withHeap { cells := oneNumber.heap.cells.push (.object counts) }, ?_, rfl, rfl⟩
  have hargs : CoreFn.countBy.signature.bind CoreFn.countBy.name [.array 0,
      .native (.core .identity)] = .ok [.array 0, .native (.core .identity)] := rfl
  rw [apply_core hargs]
  exact (countBy_single (v := .int 1) rfl (apply_identity 7 (.int 1) oneNumber) rfl).trans rfl

end ScriptLang
