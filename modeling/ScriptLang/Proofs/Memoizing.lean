import ScriptLang.Proofs.Growth
import ScriptLang.Proofs.PrintedValues

/-!
# Memoizing

A memoized function keeps what it gave under the text of its arguments. Arguments that are plain
data print alike only if they are the same; instances of one class all do.
-/

namespace ScriptLang

open ScriptLang.Action

/-- A call of a memoized function: where it was made, with what, and what it gave. -/
structure Called where
  world : World
  /-- the levels that are left for the function itself -/
  levels : Nat
  args : List Value
  result : Value

namespace Called

/-- The text under which the result is kept. -/
def key (c : Called) : Except Fault String :=
  c.world.text (.tuple c.args)

/-- What a function gives in place of the call. -/
def Gives (f : Value) (c : Called) (v : Value) : Prop :=
  ∃ w', apply c.levels f c.args c.world = .ok v w'

/-- The arguments are plain data, and not too deep to be printed. -/
structure Plain (c : Called) (js : List Json) : Prop where
  held : List.Forall₂ c.world.heap.Holds js c.args
  fits : ∀ j ∈ js, Json.Fits (valueDepth - 1) j

theorem Gives.unique {f u v : Value} {c : Called} (hu : c.Gives f u) (hv : c.Gives f v) :
    u = v := by
  obtain ⟨w₁, h₁⟩ := hu
  obtain ⟨w₂, h₂⟩ := hv
  exact (EStateM.Result.ok.inj (h₁.symm.trans h₂)).1

theorem Plain.key_eq {c : Called} {js : List Json} (h : c.Plain js) :
    c.key = .ok (String.ofList (Json.printedTuple js)) :=
  Setting.text_tuple h.held h.fits

/-- Plain data prints alike only if it is the same. -/
theorem Plain.key_eq_iff {c c' : Called} {js js' : List Json} (h : c.Plain js) (h' : c'.Plain js') :
    c.key = c'.key ↔ js = js' := by
  rw [h.key_eq, h'.key_eq]
  constructor
  · intro heq
    exact Json.printedTuple_inj (fun j hj => (h.fits j hj).sized) (fun j hj => (h'.fits j hj).sized)
      (String.ofList_injective (Except.ok.inj heq))
  · rintro rfl
    rfl

end Called

/-- How a memoized function has been used since it was made: calls of it, each of which may have
called the function that is memoized, which leaves the memory of its calls alone; and anything else
that does so. -/
inductive Memoizes (m : Loc) (f : Value) : List Called → World → Prop
  | new {w : World} (h : w.heap.cells[m]? = some (.derived (.memoized f []))) : Memoizes m f [] w
  | other {calls : List Called} {w w' : World} (h : Memoizes m f calls w)
      (hsame : w'.heap.cells[m]? = w.heap.cells[m]?) : Memoizes m f calls w'
  | call {calls : List Called} {w w' : World} {d : Nat} {args : List Value} {v : Value}
      (h : Memoizes m f calls w)
      (hf : ∀ u w₁, apply d f args w = .ok u w₁ → w₁.heap.cells[m]? = w.heap.cells[m]?)
      (hcall : apply (d + 1) (.derived m) args w = .ok v w') :
      Memoizes m f (calls ++ [⟨w, d, args, v⟩]) w'

variable {m : Loc} {f v : Value} {cache : List (String × Value)} {calls : List Called}
  {w w' : World} {d : Nat} {args : List Value} {key : String}

/-! ## One call -/

theorem modifyDerived_ok {e : Derived} (g : Derived → Derived)
    (hm : w.heap.cells[m]? = some (.derived e)) :
    ∃ w', (liftM (modifyDerived m g) : Action Unit) w = .ok () w' ∧
      w'.heap.cells[m]? = some (.derived (g e)) := by
  refine ⟨_, rfl, ?_⟩
  show (w.heap.cells.modify m _)[m]? = _
  rw [Array.getElem?_modify, if_pos rfl, hm]
  rfl

/-- Arguments that do not print are refused. -/
theorem apply_memoized_error {e : Fault}
    (hm : w.heap.cells[m]? = some (.derived (.memoized f cache)))
    (htext : w.text (.tuple args) = .error e) :
    apply (d + 1) (.derived m) args w = .error (.fault e) w := by
  rw [apply_derived hm rfl]
  exact bind_error (Routine.perform_error (text_error htext))

/-- What is kept is given again, and nothing else happens. -/
theorem apply_memoized_known (hm : w.heap.cells[m]? = some (.derived (.memoized f cache)))
    (htext : w.text (.tuple args) = .ok key) (hkey : cache.lookup key = some v) :
    apply (d + 1) (.derived m) args w = .ok v w := by
  rw [apply_derived hm rfl]
  refine (bind_ok (Routine.perform_ok (text_ok htext))).trans ?_
  rw [hkey]
  rfl

/-- For a new text the function is called, and what it gives is kept. -/
theorem apply_memoized_new (hm : w.heap.cells[m]? = some (.derived (.memoized f cache)))
    (htext : w.text (.tuple args) = .ok key) (hkey : cache.lookup key = none) :
    apply (d + 1) (.derived m) args w =
      (apply d f args >>= fun v => do
        modifyDerived m (·.keeping key v)
        return v) w := by
  rw [apply_derived hm rfl]
  refine (bind_ok (Routine.perform_ok (text_ok htext))).trans ?_
  rw [hkey]

theorem apply_memoized_value (hm : w.heap.cells[m]? = some (.derived (.memoized f cache)))
    (htext : w.text (.tuple args) = .ok key) (hkey : cache.lookup key = none)
    (hf : apply d f args w = .ok v w') : ∃ w'', apply (d + 1) (.derived m) args w = .ok v w'' := by
  rw [apply_memoized_new hm htext hkey]
  exact ⟨_, (bind_ok hf).trans rfl⟩

/-! ## All calls -/

/-- What is kept after some calls: for each text the result of the calls that had it, which the
function gave for one of them. -/
structure Called.Kept (f : Value) (calls : List Called) (cache : List (String × Value)) : Prop where
  found : ∀ c ∈ calls, ∃ key, c.key = .ok key ∧ cache.lookup key = some c.result
  given : ∀ key v, cache.lookup key = some v → ∃ c ∈ calls, c.key = .ok key ∧ c.Gives f v

theorem Called.Kept.again {c : Called} (h : Kept f calls cache) (hkey : c.key = .ok key)
    (hknown : cache.lookup key = some c.result) : Kept f (calls ++ [c]) cache := by
  constructor
  · intro b hb
    rcases List.mem_append.1 hb with hb | hb
    · exact h.found b hb
    · rw [List.mem_singleton.1 hb]
      exact ⟨key, hkey, hknown⟩
  · intro key' v hv
    obtain ⟨b, hb, hgiven⟩ := h.given key' v hv
    exact ⟨b, List.mem_append_left _ hb, hgiven⟩

theorem Called.Kept.new {c : Called} (h : Kept f calls cache) (hkey : c.key = .ok key)
    (hnew : cache.lookup key = none) (hgives : c.Gives f c.result) :
    Kept f (calls ++ [c]) ((key, c.result) :: cache) := by
  constructor
  · intro b hb
    rcases List.mem_append.1 hb with hb | hb
    · obtain ⟨key', hkey', hlookup⟩ := h.found b hb
      have hne : (key' == key) = false := by
        rw [beq_eq_false_iff_ne]
        rintro rfl
        cases hnew.symm.trans hlookup
      exact ⟨key', hkey', by rw [List.lookup_cons, hne]; exact hlookup⟩
    · rw [List.mem_singleton.1 hb]
      exact ⟨key, hkey, List.lookup_cons_self⟩
  · intro key' v hv
    rw [List.lookup_cons] at hv
    cases heq : key' == key with
    | true =>
      rw [heq] at hv
      cases hv
      cases beq_iff_eq.1 heq
      exact ⟨c, List.mem_append_right _ List.mem_cons_self, hkey, hgives⟩
    | false =>
      rw [heq] at hv
      obtain ⟨b, hb, hgiven⟩ := h.given key' v hv
      exact ⟨b, List.mem_append_left _ hb, hgiven⟩

theorem Memoizes.kept (h : Memoizes m f calls w) :
    ∃ cache, w.heap.cells[m]? = some (.derived (.memoized f cache)) ∧
    Called.Kept f calls cache := by
  induction h with
  | new h => exact ⟨[], h, nofun, nofun⟩
  | other _ hsame ih =>
    obtain ⟨cache, hm, hkept⟩ := ih
    exact ⟨cache, hsame.trans hm, hkept⟩
  | @call calls w w' d args v _ hf hcall ih =>
    obtain ⟨cache, hm, hkept⟩ := ih
    cases htext : w.text (.tuple args) with
    | error e => cases (apply_memoized_error hm htext).symm.trans hcall
    | ok key =>
      cases hknown : cache.lookup key with
      | some u =>
        obtain ⟨rfl, rfl⟩ :=
          EStateM.Result.ok.inj ((apply_memoized_known hm htext hknown).symm.trans hcall)
        exact ⟨cache, hm, hkept.again htext hknown⟩
      | none =>
        rw [apply_memoized_new hm htext hknown] at hcall
        obtain ⟨u, w₁, hrun, hrest⟩ := bind_eq_ok hcall
        obtain ⟨w₂, hmodify, hcell⟩ := modifyDerived_ok (·.keeping key u) ((hf u w₁ hrun).trans hm)
        obtain ⟨rfl, rfl⟩ := EStateM.Result.ok.inj (hrest.symm.trans (bind_ok hmodify))
        exact ⟨(key, v) :: cache, hcell, hkept.new htext hknown ⟨w₁, hrun⟩⟩

/-- Calls whose arguments printed alike gave the same, and this is what the function gives for one
of them. -/
theorem Memoizes.given (h : Memoizes m f calls w) {c : Called} (hc : c ∈ calls) :
    ∃ b ∈ calls, b.key = c.key ∧ b.Gives f c.result := by
  obtain ⟨cache, -, hkept⟩ := h.kept
  obtain ⟨key, hkey, hlookup⟩ := hkept.found c hc
  obtain ⟨b, hb, hkeyb, hgives⟩ := hkept.given key c.result hlookup
  exact ⟨b, hb, hkeyb.trans hkey.symm, hgives⟩

theorem Memoizes.result_eq (h : Memoizes m f calls w) {b c : Called} (hb : b ∈ calls)
    (hc : c ∈ calls) (hkey : b.key = c.key) : b.result = c.result := by
  obtain ⟨cache, -, hkept⟩ := h.kept
  obtain ⟨key, hkeyb, hlookupb⟩ := hkept.found b hb
  obtain ⟨key', hkeyc, hlookupc⟩ := hkept.found c hc
  cases hkeyb.symm.trans (hkey.trans hkeyc)
  exact Option.some.inj (hlookupb.symm.trans hlookupc)

/-- A call of a memoized function gives what calls gave whose arguments printed as its own do, and
nothing else happens; if there was none, it ends as the function itself does; and arguments that do
not print are refused.

So all calls gave what the function gives for their own arguments exactly if it answers arguments
alike that print alike. This is so if the arguments are plain data, for which printing alike is
being the same, and the function gives the same for the same data. -/
theorem memo_answers_what_prints_alike {m : Loc} {f : Value} {calls : List Called} {w : World}
    (h : Memoizes m f calls w) :
    (∀ d args,
      (∀ e, w.text (.tuple args) = .error e → apply (d + 1) (.derived m) args w =
        .error (.fault e) w) ∧
      (∀ c ∈ calls, c.key = w.text (.tuple args) → apply (d + 1) (.derived m) args w =
        .ok c.result w) ∧
      (∀ key, w.text (.tuple args) = .ok key → (∀ c ∈ calls, c.key ≠ .ok key) →
        (∀ s w', apply d f args w = .error s w' → apply (d + 1) (.derived m) args w = .error s w') ∧
        ∀ v w', apply d f args w = .ok v w' → ∃ w'', apply (d + 1) (.derived m) args w =
          .ok v w'')) ∧
    ((∀ c ∈ calls, c.Gives f c.result) ↔
      ∀ b ∈ calls, ∀ c ∈ calls, b.key = c.key → ∀ v, b.Gives f v → c.Gives f v) ∧
    (∀ b ∈ calls, ∀ c ∈ calls, ∀ js ks, b.Plain js → c.Plain ks → (b.key = c.key ↔ js = ks)) ∧
    ((∀ c ∈ calls, ∃ js, c.Plain js) →
      (∀ b ∈ calls, ∀ c ∈ calls, ∀ js, b.Plain js → c.Plain js → ∀ v, b.Gives f v → c.Gives f v) →
      ∀ c ∈ calls, c.Gives f c.result) := by
  have hright (halike : ∀ b ∈ calls, ∀ c ∈ calls, b.key = c.key → ∀ v, b.Gives f v → c.Gives f v) :
      ∀ c ∈ calls, c.Gives f c.result := by
    intro c hc
    obtain ⟨b, hb, hkey, hgives⟩ := h.given hc
    exact halike b hb c hc hkey c.result hgives
  refine ⟨fun d args => ⟨?_, ?_, ?_⟩, ⟨?_, hright⟩, ?_, ?_⟩
  · intro e htext
    obtain ⟨cache, hm, -⟩ := h.kept
    exact apply_memoized_error hm htext
  · intro c hc hkey
    obtain ⟨cache, hm, hkept⟩ := h.kept
    obtain ⟨key, hkeyc, hlookup⟩ := hkept.found c hc
    exact apply_memoized_known hm (hkey.symm.trans hkeyc) hlookup
  · intro key htext hnone
    obtain ⟨cache, hm, hkept⟩ := h.kept
    have hnew : cache.lookup key = none := by
      cases hlookup : cache.lookup key with
      | none => rfl
      | some v =>
        obtain ⟨c, hc, hkey, -⟩ := hkept.given key v hlookup
        exact absurd hkey (hnone c hc)
    constructor
    · intro s w' hf
      rw [apply_memoized_new hm htext hnew]
      exact bind_error hf
    · intro v w' hf
      exact apply_memoized_value hm htext hnew hf
  · intro hall b hb c hc hkey v hv
    rw [hv.unique (hall b hb), h.result_eq hb hc hkey]
    exact hall c hc
  · intro b _ c _ js ks hjs hks
    exact hjs.key_eq_iff hks
  · intro hplain hsame
    refine hright fun b hb c hc hkey v hv => ?_
    obtain ⟨js, hjs⟩ := hplain b hb
    obtain ⟨ks, hks⟩ := hplain c hc
    cases (hjs.key_eq_iff hks).1 hkey
    exact hsame b hb c hc js hjs hks v hv

/-- A call of `identity` leaves everything alone. -/
theorem identity_leaves (d : Nat) (v : Value) (m : Loc) (w : World) (u : Value) (w₁ : World)
    (h : apply (d + 1) (.native (.core .identity)) [v] w = .ok u w₁) :
    w₁.heap.cells[m]? = w.heap.cells[m]? := by
  rw [(EStateM.Result.ok.inj ((apply_identity d v w).symm.trans h)).2]

/-- A world with a function that has just been memoized, in front of some other cells. -/
def memoOf (f : Value) (cells : List Cell) : World :=
  let w := oneFunction []
  { w with heap := { w.heap with cells := (.derived (.memoized f []) :: cells).toArray } }

theorem plain_text (w : World) (d : Nat) (s : String) (v : Value) :
    (Called.mk w d [.text s] v).Plain [.text s] where
  held := .cons (.text s) .nil
  fits := by
    intro j hj
    rw [List.mem_singleton.1 hj]
    have hdepth : (Json.text s).depth = 1 := rfl
    exact ⟨by rw [hdepth]; decide, rfl⟩

/-- The memoized `identity` gives texts back. -/
theorem memoized_identity_gives_texts :
    let f := Value.native (.core .identity)
    ∃ w₁ w₂, let calls :=
      [⟨memoOf f [], 1, [.text "a"], .text "a"⟩, ⟨w₁, 1, [.text "b"], .text "b"⟩]
      Memoizes 0 f calls w₂ ∧ ∀ c ∈ calls, c.Gives f c.result := by
  intro f
  have hdistinct {w w' : World} : (Called.mk w 1 [.text "a"] (.text "a")).key ≠
      (Called.mk w' 1 [.text "b"] (.text "b")).key := by
    rw [ne_eq, (plain_text w 1 "a" _).key_eq_iff (plain_text w' 1 "b" _)]
    simp
  obtain ⟨w₁, hfirst⟩ : ∃ w₁, apply 2 (.derived 0) [.text "a"] (memoOf f []) = .ok (.text "a") w₁ :=
    apply_memoized_value rfl (plain_text _ 1 "a" (.text "a")).key_eq rfl (apply_identity 0 _ _)
  have hone : Memoizes 0 f [⟨memoOf f [], 1, [.text "a"], .text "a"⟩] w₁ :=
    .call (.new rfl) (identity_leaves 0 _ 0 _) hfirst
  have hkey := (plain_text w₁ 1 "b" (.text "b")).key_eq
  obtain ⟨w₂, hsecond⟩ := (((memo_answers_what_prints_alike hone).1 1 [.text "b"]).2.2 _ hkey (by
    intro c hc
    rw [List.mem_singleton.1 hc, ← hkey]
    exact hdistinct)).2 _ _ (apply_identity 0 _ _)
  have htwo := hone.call (identity_leaves 0 _ 0 _) hsecond
  refine ⟨w₁, w₂, htwo, (memo_answers_what_prints_alike htwo).2.2.2 ?_ ?_⟩
  · intro c hc
    rcases List.mem_pair.1 hc with rfl | rfl
    · exact ⟨_, plain_text _ 1 "a" _⟩
    · exact ⟨_, plain_text _ 1 "b" _⟩
  · intro b hb c hc js hjs hks v hv
    have hkey : b.key = c.key := (hjs.key_eq_iff hks).2 rfl
    rcases List.mem_pair.1 hb with rfl | rfl <;> rcases List.mem_pair.1 hc with rfl | rfl
    · exact hv
    · exact absurd hkey hdistinct
    · exact absurd hkey.symm hdistinct
    · exact hv

theorem text_instance (w : World) (l : Loc) :
    w.text (.tuple [.instance l]) =
      .ok ("(" ++ ("<" ++ w.heap.classNameAt l ++ " instance>") ++ ",)") :=
  rfl

/-- The memoized `identity` gives an instance for another one of its class. -/
theorem memoized_identity_confuses_instances :
    let f := Value.native (.core .identity)
    let w := memoOf f [.instance 0 "A" [("v", .int 1)], .instance 0 "A" [("v", .int 2)]]
    ∃ w₁ w₂, let calls := [⟨w, 1, [.instance 1], .instance 1⟩, ⟨w₁, 1, [.instance 2], .instance 1⟩]
      Memoizes 0 f calls w₂ ∧ ∃ c ∈ calls, c.Gives f (.instance 2) ∧ c.result = .instance 1 := by
  intro f w
  have htext := text_instance w 1
  have hfirst := apply_memoized_new (d := 1) (m := 0) rfl htext rfl
  obtain ⟨w₁, hmodify, hcell⟩ : ∃ w₁ : World, apply 2 (.derived 0)
      [.instance 1] w = .ok (.instance 1) w₁ ∧
      w₁.heap.cells[2]? = some (.instance 0 "A" [("v", .int 2)]) :=
    ⟨_, hfirst.trans ((bind_ok (apply_identity 0 _ w)).trans rfl), rfl⟩
  have hone : Memoizes 0 f [⟨w, 1, [.instance 1], .instance 1⟩] w₁ :=
    .call (.new rfl) (identity_leaves 0 _ 0 _) hmodify
  obtain ⟨cache, hm, hkept⟩ := hone.kept
  obtain ⟨key, hkey, hlookup⟩ := hkept.found _ (List.mem_singleton.2 rfl)
  have halike : w₁.text (.tuple [.instance 2]) = .ok key := by
    rw [← hkey, text_instance, Heap.classNameAt, hcell]
    rfl
  have hsecond := apply_memoized_known (d := 1) hm halike hlookup
  refine ⟨w₁, w₁, hone.call (identity_leaves 0 _ 0 _) hsecond, ?_⟩
  exact ⟨_, List.mem_cons_of_mem _ (List.mem_singleton.2 rfl), ⟨_, apply_identity 0 _ _⟩, rfl⟩

end ScriptLang
