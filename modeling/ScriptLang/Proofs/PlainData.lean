import ScriptLang.Proofs.Entries
import ScriptLang.Proofs.Effects

/-!
# Heaps of plain data

Two things about the heap hold in every run. Cells keep what they were made from: an array stays an
array, an instance stays of its class, a derived function keeps the function it was made from. And
where a program stays with the functions that every program has, except three that do otherwise, the
heap has plain data only: no tuples and no bytes, and objects with distinct texts as keys.

The first is said of every routine and every action, the second only of those that are given plain
data. Both are stated together, as one policy with a parameter: where `strict` is false nothing is
asked of the data.
-/

namespace ScriptLang

variable {l : Loc} {v : Value}

/-! ## Cells keep what they were made from -/

/-- A cell without what routines can change of it: the items of an array, the entries of an
object. -/
def Cell.shell : Cell → Cell
  | .array _ => .array #[]
  | .object _ => .object []
  | c => c

/-- A cell without what can change of it at all. -/
def Cell.fixed : Cell → Cell
  | .array _ => .array #[]
  | .object _ => .object []
  | .instance cls className _ => .instance cls className []
  | .derived (.memoized f _) => .derived (.memoized f [])
  | .derived (.once f _ _) => .derived (.once f false .null)
  | .derived (.debounced f delay _) => .derived (.debounced f delay 0)
  | .derived (.throttled f limit _) => .derived (.throttled f limit 0)
  | c => c

theorem Cell.fixed_shell (c : Cell) : c.shell.fixed = c.fixed := by
  cases c <;> rfl

/-- The change from one heap to another in which cells are added and those that were there keep what
`view` shows of them, except the cell `own`, which is being made. -/
structure Heap.Evolves (view : Cell → Cell) (own : Option Loc) (before after : Heap) : Prop where
  grows : before.cells.size ≤ after.cells.size
  same : ∀ l < before.cells.size, own ≠ some l →
    after.cells[l]?.map view = before.cells[l]?.map view

namespace Heap.Evolves

variable {view view' : Cell → Cell} {own : Option Loc} {a b c h : Heap}

theorem refl (h : Heap) : h.Evolves view own h :=
  ⟨Nat.le_refl _, fun _ _ _ => rfl⟩

theorem trans (h₁ : a.Evolves view own b) (h₂ : b.Evolves view own c) : a.Evolves view own c where
  grows := Nat.le_trans h₁.grows h₂.grows
  same l hl hown := by
    rw [h₂.same l (Nat.lt_of_lt_of_le hl h₁.grows) hown, h₁.same l hl hown]

/-- What keeps all that is shown also keeps what a coarser view shows, and may be done while a cell
is being made. -/
theorem coarsen (h : a.Evolves view none b) (hview : ∀ c, view' (view c) = view' c) :
    a.Evolves view' own b where
  grows := h.grows
  same l hl _ := by
    have hsame := congrArg (Option.map view') (h.same l hl nofun)
    simpa only [Option.map_map, Function.comp_def, hview] using hsame

theorem push (c : Cell) : h.Evolves view own { h with cells := h.cells.push c } where
  grows := by simp
  same l hl _ := by simp only [Effect.getElem?_push hl]

theorem of_push {c : Cell}
    (hb : Evolves view (some a.cells.size) { a with cells := a.cells.push c } b) :
    a.Evolves view none b where
  grows := by
    have := hb.grows
    rw [Array.size_push] at this
    omega
  same l hl _ := by
    have hne : some a.cells.size ≠ some l := by simp; omega
    rw [hb.same l (by rw [Array.size_push]; omega) hne]
    simp only [Effect.getElem?_push hl]

theorem modify {f : Cell → Cell} (hf : ∀ c, view (f c) = view c) :
    h.Evolves view own { h with cells := h.cells.modify l f } where
  grows := by simp
  same k _ _ := by
    simp only [Array.getElem?_modify]
    split
    · rw [Option.map_map, show view ∘ f = view from funext hf]
    · rfl

theorem set_own (l : Loc) (c : Cell) : h.Evolves view (some l) (h.set l c) where
  grows := by simp [Heap.set]
  same k _ hown := by
    have hne : l ≠ k := fun heq => hown (by rw [heq])
    simp [Heap.set, Array.getElem?_setIfInBounds_ne hne]

end Heap.Evolves

/-! ## Plain values -/

/-- The functions that can make tuples, or objects with keys that are not texts. -/
def CoreFn.isRaw : CoreFn → Bool
  | .zip | .fromEntries | .countBy => true
  | _ => false

/-- The values that programs have without packages and without the raw functions. -/
def Value.isPlain : Value → Bool
  | .tuple _ | .bytes _ | .package _ | .handle _ => false
  | .native (.core f) => !f.isRaw
  | .native _ => false
  | .bound receiver _ => receiver.isPlain
  | _ => true

/-- The entries of a plain object: distinct texts as keys, and plain values. -/
structure Entries.Plain (es : Entries) : Prop where
  texts : ∀ e ∈ es, ∃ k, e.1 = .text k
  distinct : (es.map (·.1)).Nodup
  values : ∀ e ∈ es, e.2.isPlain = true

/-- The values that a derived function is made of. -/
def Derived.parts : Derived → List Value
  | .method receiver _ _ => [.instance receiver]
  | .staticMethod owner _ => [.class owner]
  | .memoized f cache => f :: cache.map (·.2)
  | .curried f arity => [f, arity]
  | .applied base args => .derived base :: args
  | .composed fs | .piped fs => fs
  | .constant v => [v]
  | .negated f => [f]
  | .once f _ result => [f, result]
  | .debounced f delay _ => [f, delay]
  | .throttled f limit _ => [f, limit]
  | .clickHandler _ => []

/-- Whether a derived function is made of plain values. Handlers of clicks belong to a package. -/
def Derived.isPlain : Derived → Bool
  | .clickHandler _ => false
  | d => d.parts.all Value.isPlain

section

variable (strict : Bool)

/-- Where data is to be plain, a value is. -/
def Value.Fits (v : Value) : Prop := strict = true → v.isPlain = true

def Entries.Fits (es : Entries) : Prop := strict = true → Entries.Plain es

def Derived.Fits (d : Derived) : Prop := strict = true → d.isPlain = true

/-- Where data is to be plain, what a cell holds is. -/
def Cell.Fits : Cell → Prop
  | .array xs => ∀ x ∈ xs, x.Fits strict
  | .parameters _ => True
  | .object es => Entries.Fits strict es
  | .instance _ _ props => ∀ p ∈ props, p.2.Fits strict
  | .derived d => d.Fits strict

/-- Where data is to be plain, the heap has plain data only. -/
def Heap.Fits (h : Heap) : Prop := ∀ c ∈ h.cells, c.Fits strict

end

variable {strict : Bool}

/-! ## Plain entries -/

namespace Entries.Plain

variable {es fs : Entries}

theorem nil : Entries.Plain [] :=
  ⟨by simp, by simp, by simp⟩

theorem put (h : Entries.Plain es) (key : String) (hv : v.isPlain = true) :
    Entries.Plain (es.put (.text key) v) where
  texts e he := by
    rcases Entries.mem_put he with he | rfl | ⟨f, hf, -, rfl⟩
    · exact h.texts e he
    · exact ⟨key, rfl⟩
    · exact h.texts f hf
  distinct := by
    cases hhas : es.has (.text key) with
    | true =>
      rw [Entries.keys_put hhas]
      exact h.distinct
    | false =>
      have hnew : Value.text key ∉ es.map (·.1) := by
        rw [← Entries.has_iff_mem, hhas]
        exact Bool.false_ne_true
      rw [Entries.keys_put_of_not_has hhas, List.nodup_append]
      refine ⟨h.distinct, by simp, ?_⟩
      rintro k hk _ hkey rfl
      rw [List.mem_singleton] at hkey
      exact hnew (hkey ▸ hk)
  values e he := by
    rcases Entries.mem_put he with he | rfl | ⟨f, hf, -, rfl⟩
    · exact h.values e he
    · exact hv
    · exact hv

theorem put_entry (h : Entries.Plain es) (hf : Entries.Plain fs) {e : Value × Value} (he : e ∈ fs) :
    Entries.Plain (es.put e.1 e.2) := by
  obtain ⟨key, hkey⟩ := hf.texts e he
  rw [hkey]
  exact h.put key (hf.values e he)

theorem merge (h : Entries.Plain es) (hf : Entries.Plain fs) : Entries.Plain (es.merge fs) := by
  have fold (gs : Entries) (hgs : ∀ e ∈ gs, e ∈ fs) (acc : Entries) (hacc : Entries.Plain acc) :
      Entries.Plain (gs.foldl (fun acc e => acc.put e.1 e.2) acc) := by
    induction gs generalizing acc with
    | nil => exact hacc
    | cons e gs ih =>
      rw [List.forall_mem_cons] at hgs
      exact ih hgs.2 _ (hacc.put_entry hf hgs.1)
  exact fold fs (fun _ he => he) es h

theorem sublist (h : Entries.Plain es) (hsub : fs.Sublist es) : Entries.Plain fs where
  texts e he := h.texts e (hsub.subset he)
  distinct := h.distinct.sublist (hsub.map _)
  values e he := h.values e (hsub.subset he)

theorem get? (h : Entries.Plain es) {k : Value} (hv : es.get? k = some v) : v.isPlain = true := by
  obtain ⟨e, he, -, rfl⟩ := Entries.mem_of_get? hv
  exact h.values e he

theorem get?_of_mem (h : Entries.Plain es) {e : Value × Value} (he : e ∈ es) :
    es.get? e.1 = some e.2 := by
  obtain ⟨key, hkey⟩ := h.texts e he
  obtain ⟨htexts, hdistinct, -⟩ := h
  induction es with
  | nil => contradiction
  | cons f es ih =>
    rw [List.map_cons, List.nodup_cons] at hdistinct
    rw [hkey, Entries.get?]
    rcases List.mem_cons.1 he with rfl | hmem
    · rw [if_pos (Value.sameKey_text.2 hkey)]
    · -- another entry has another key
      have hother : ¬ f.1.sameKey (.text key) = true := by
        intro hsame
        rw [Value.sameKey_text, ← hkey] at hsame
        exact hdistinct.1 (hsame ▸ List.mem_map_of_mem hmem)
      rw [if_neg hother, ← hkey]
      exact ih hmem (fun e he => htexts e (List.mem_cons_of_mem _ he)) hdistinct.2

end Entries.Plain

/-! ## What fits -/

theorem Value.fits_of_isPlain (h : v.isPlain = true) : v.Fits strict :=
  fun _ => h

theorem Value.isPlain_ofLiteral (v : Literal) : (Value.ofLiteral v).isPlain = true := by
  cases v <;> rfl

theorem Value.fits_loose (v : Value) : v.Fits false :=
  nofun

theorem Value.Fits.loose (h : v.Fits strict) (hv : v.isPlain = false) : strict = false := by
  cases strict with
  | false => rfl
  | true => exact absurd (h rfl) (by simp [hv])

theorem Entries.fits_loose (es : Entries) : Entries.Fits false es :=
  nofun

theorem Cell.fits_loose (c : Cell) : c.Fits false := by
  cases c with
  | array xs => exact fun x _ => x.fits_loose
  | parameters names => trivial
  | object es => exact Entries.fits_loose es
  | «instance» cls className props => exact fun p _ => p.2.fits_loose
  | derived d => rintro ⟨⟩

theorem Value.fits_getD {xs : List Value} (h : ∀ x ∈ xs, x.Fits strict) (i : Nat) :
    (xs.getD i .null).Fits strict := by
  rw [List.getD_eq_getElem?_getD]
  cases hx : xs[i]? with
  | none => exact Value.fits_of_isPlain rfl
  | some x => exact h x (List.mem_of_getElem? hx)

theorem Value.fits_push {xs : Array Value} (h : ∀ x ∈ xs, x.Fits strict)
    (hv : v.Fits strict) : ∀ x ∈ xs.push v, x.Fits strict := by
  intro x hx
  rcases Array.mem_push.1 hx with hx | rfl
  · exact h x hx
  · exact hv

variable {es : Entries}

theorem Entries.Fits.keys (h : Entries.Fits strict es) : ∀ k ∈ es.map (·.1), k.Fits strict := by
  rintro k hk hstrict
  obtain ⟨e, he, rfl⟩ := List.mem_map.1 hk
  obtain ⟨key, hkey⟩ := (h hstrict).texts e he
  rw [hkey]
  rfl

theorem Entries.Fits.values (h : Entries.Fits strict es) : ∀ v ∈ es.map (·.2), v.Fits strict := by
  rintro v hv hstrict
  obtain ⟨e, he, rfl⟩ := List.mem_map.1 hv
  exact (h hstrict).values e he

theorem Entries.Fits.get? (h : Entries.Fits strict es) {k : Value} (hv : es.get? k = some v) :
    v.Fits strict :=
  fun hstrict => (h hstrict).get? hv

theorem Entries.Fits.put (h : Entries.Fits strict es) (key : String) (hv : v.Fits strict) :
    Entries.Fits strict (es.put (.text key) v) :=
  fun hstrict => (h hstrict).put key (hv hstrict)

namespace Heap.Fits

variable {h : Heap} (hfits : h.Fits strict)

include hfits

theorem items (l : Loc) : ∀ x ∈ h.items l, x.Fits strict := by
  unfold Heap.items
  split
  · next xs hl => exact hfits (.array xs) (Array.mem_of_getElem? hl)
  · intro x hx
    obtain ⟨name, -, rfl⟩ := List.mem_map.1 (List.mem_toArray.1 hx)
    exact fun _ => rfl
  · simp

theorem entries (l : Loc) : Entries.Fits strict (h.entries l) := by
  unfold Heap.entries
  split
  · next es hl => exact hfits (.object es) (Array.mem_of_getElem? hl)
  · exact fun _ => .nil

theorem instanceAt (l : Loc) : ∀ p ∈ (h.instanceAt l).2, p.2.Fits strict := by
  unfold Heap.instanceAt
  split
  · next cls name props hl => exact hfits (.instance cls name props) (Array.mem_of_getElem? hl)
  · simp

theorem derivedAt? {d : Derived} (hd : h.derivedAt? l = some d) : d.Fits strict := by
  unfold Heap.derivedAt? at hd
  split at hd
  · next d' hl =>
    cases hd
    exact hfits (.derived d) (Array.mem_of_getElem? hl)
  · contradiction

theorem push {c : Cell} (hc : c.Fits strict) :
    Heap.Fits strict { h with cells := h.cells.push c } := by
  intro d hd
  rcases Array.mem_push.1 hd with hd | rfl
  · exact hfits d hd
  · exact hc

theorem modify {f : Cell → Cell} (hf : ∀ c, c.Fits strict → (f c).Fits strict) :
    Heap.Fits strict { h with cells := h.cells.modify l f } := by
  intro c hc
  obtain ⟨i, hi⟩ := Array.getElem?_of_mem hc
  rw [Array.getElem?_modify] at hi
  split at hi
  · obtain ⟨c', hc', rfl⟩ := Option.map_eq_some_iff.1 hi
    exact hf c' (hfits c' (Array.mem_of_getElem? hc'))
  · exact hfits c (Array.mem_of_getElem? hi)

theorem set {c : Cell} (hc : c.Fits strict) : (h.set l c).Fits strict := by
  intro d hd
  rcases Array.mem_or_eq_of_mem_setIfInBounds hd with hd | rfl
  · exact hfits d hd
  · exact hc

end Heap.Fits

/-! ## Routines -/

/-- The heap changes only as `view` and `own` allow, and the answer that is being written does
not. -/
structure Setting.Develops (view : Cell → Cell) (own : Option Loc) (before after : Setting) :
    Prop where
  heap : before.heap.Evolves view own after.heap
  exchange : after.exchange = before.exchange

theorem Setting.Develops.trans {view : Cell → Cell} {own : Option Loc} {a b c : Setting}
    (h₁ : a.Develops view own b) (h₂ : b.Develops view own c) : a.Develops view own c :=
  ⟨h₁.heap.trans h₂.heap, h₂.exchange.trans h₁.exchange⟩

/-- Routines add cells and change what arrays and objects hold, nothing else of the heap; they write
no answers; and plain data stays plain. -/
def heapPolicy (strict : Bool) : Policy Halt Setting where
  inv s := s.heap.Fits strict
  rel := Setting.Develops Cell.shell none
  halts _ := True
  refl _ := ⟨.refl _, rfl⟩
  trans := .trans

/-- A routine keeps the heap in order, and its value has `Q`. -/
abbrev Keeps {α : Type} (strict : Bool) (r : Routine α) (Q : α → Prop := fun _ => True) : Prop :=
  (heapPolicy strict).Ensures r Q

/-- A routine keeps the heap in order and gives a value that fits. -/
abbrev Gives (strict : Bool) (r : Routine Value) : Prop :=
  Keeps strict r (Value.Fits strict)

instance (priority := low) Still.keeps {α : Type} {x : Routine α} [h : Still x] : Keeps strict x :=
  h.of_still fun _ => trivial

namespace Policy.Ensures

open ScriptLang.Action

variable {α : Type} {Q : α → Prop}

theorem leaf {ε σ : Type} {P : Policy ε σ} (hv : v.isPlain = true) :
    P.Ensures (Pure.pure v) (Value.Fits strict) :=
  .pure fun _ => hv

theorem fail (f : Fault) : Keeps strict (Action.fail f) Q :=
  .throw trivial

theorem fail_bind {β : Type} {R : β → Prop} (f : Fault) (g : α → Routine β) :
    Keeps strict (Action.fail f >>= g) R :=
  bind (Q := fun _ => False) (fail f) fun _ h => h.elim

theorem ofExcept {r : Except Fault α} (h : ∀ a, r = .ok a → Q a) :
    Keeps strict (Action.ofExcept r) Q := by
  cases r with
  | ok a => exact .pure (h a rfl)
  | error f => exact .fail f

instance ofExcept_any (r : Except Fault α) : Keeps strict (Action.ofExcept r) :=
  ofExcept fun _ _ => trivial

theorem aside {f : Setting → Setting} (hf : ∀ s, (f s).heap = s.heap)
    (hexchange : ∀ s, (f s).exchange = s.exchange := by intro _; rfl) :
    Keeps strict (modify f) := by
  refine .change fun s hs => ⟨?_, ?_, hexchange s⟩
  · show (f s).heap.Fits strict
    rwa [hf s]
  · rw [hf s]
    exact .refl _

theorem asideGet {f : Setting → α × Setting} (hf : ∀ s, (f s).2.heap = s.heap)
    (hQ : ∀ s, Q (f s).1) (hexchange : ∀ s, (f s).2.exchange = s.exchange := by intro _; rfl) :
    Keeps strict (modifyGet f) Q := by
  refine .changeGet fun s hs => ⟨?_, ⟨?_, hexchange s⟩, hQ s⟩
  · show (f s).2.heap.Fits strict
    rwa [hf s]
  · rw [hf s]
    exact .refl _

instance heap : Keeps strict Action.heap (Heap.Fits strict) :=
  ⟨fun s hs => ⟨hs, ⟨.refl s.heap, rfl⟩, hs⟩⟩

instance items (l : Loc) : Keeps strict (Action.items l) fun xs => ∀ x ∈ xs, x.Fits strict :=
  ⟨fun s hs => ⟨hs, ⟨.refl s.heap, rfl⟩, hs.items l⟩⟩

instance entries (l : Loc) : Keeps strict (Action.entries l) (Entries.Fits strict) :=
  ⟨fun s hs => ⟨hs, ⟨.refl s.heap, rfl⟩, hs.entries l⟩⟩

/-! ### New cells -/

theorem alloc {c : Cell} (hc : c.Fits strict) : Keeps strict (Action.alloc c) :=
  ⟨fun _ hs => ⟨hs.push hc, ⟨.push c, rfl⟩, trivial⟩⟩

theorem newArray {xs : Array Value} (h : ∀ x ∈ xs, x.Fits strict) :
    Gives strict (Action.newArray xs) :=
  (alloc (c := .array xs) h).map fun _ _ _ => rfl

theorem arrayOf {xs : List Value} (h : ∀ x ∈ xs, x.Fits strict) :
    Gives strict (Action.arrayOf xs) :=
  newArray (by simpa using h)

theorem newObject {es : Entries} (h : Entries.Fits strict es) :
    Gives strict (Action.newObject es) :=
  (alloc (c := .object es) h).map fun _ _ _ => rfl

theorem newDerived {d : Derived} (h : d.Fits strict) : Gives strict (Action.newDerived d) :=
  (alloc (c := .derived d) h).map fun _ _ _ => rfl

/-! ### Changes in place -/

theorem modifyCell {f : Cell → Cell} (hshell : ∀ c, (f c).shell = c.shell)
    (hfits : ∀ c, c.Fits strict → (f c).Fits strict) : Keeps strict (Action.modifyCell l f) :=
  ⟨fun _ hs => ⟨hs.modify hfits, ⟨.modify hshell, rfl⟩, trivial⟩⟩

theorem modifyItems {f : Array Value → Array Value}
    (hf : ∀ xs, (∀ x ∈ xs, x.Fits strict) → ∀ x ∈ f xs, x.Fits strict) :
    Keeps strict (Action.modifyItems l f) := by
  refine (heap).bind fun h _ => .ite (.throw trivial) (modifyCell (fun c => ?_) fun c hc => ?_)
  · cases c <;> rfl
  · cases c with
    | array xs => exact hf xs hc
    | _ => exact hc

theorem setItems {xs : Array Value} (h : ∀ x ∈ xs, x.Fits strict) :
    Keeps strict (Action.setItems l xs) :=
  modifyItems fun _ _ => h

theorem modifyEntries {f : Entries → Entries}
    (hf : ∀ es, Entries.Fits strict es → Entries.Fits strict (f es)) :
    Keeps strict (Action.modifyEntries l f) := by
  refine modifyCell (fun c => ?_) fun c hc => ?_
  · cases c <;> rfl
  · cases c with
    | object es => exact hf es hc
    | _ => exact hc

theorem setEntries {es : Entries} (h : Entries.Fits strict es) :
    Keeps strict (Action.setEntries l es) :=
  modifyEntries fun _ _ => h

/-! ### Console, numbers and random numbers -/

instance real (x : Float) : Gives strict (Action.real x) := by
  unfold Action.real
  split
  · exact asideGet (fun _ => rfl) fun _ _ => rfl
  · exact .leaf rfl

instance print (s : String) : Keeps strict (Action.print s) :=
  aside fun _ => rfl

instance readLine : Keeps strict Action.readLine := by
  refine .get_bind fun s => ?_
  split
  · exact .of_ensures (fail _)
  · refine .set_bind id ⟨.refl _, rfl⟩ ?_
    split
    · exact .throw trivial
    · exact .pure trivial

instance randomBits : Keeps strict Action.randomBits :=
  asideGet (fun _ => rfl) fun _ => trivial

theorem onFault {act : Routine α} {handler : Fault → Routine α} (hact : Keeps strict act Q)
    (hh : ∀ f, Keeps strict (handler f) Q) : Keeps strict (Action.onFault act handler) Q := by
  refine hact.tryCatch fun e _ => ?_
  cases e with
  | fault f => exact hh f
  | _ => exact .throw trivial

end Policy.Ensures

/-! ## By parts -/

/-- Where nothing is asked of the data, everything fits. -/
instance : Fact (v.Fits false) := ⟨v.fits_loose⟩

instance (es : Entries) : Fact (Entries.Fits false es) := ⟨es.fits_loose⟩

instance (xs : List Value) : Fact (∀ x ∈ xs, x.Fits false) := ⟨fun x _ => x.fits_loose⟩

section

variable {xs : List Value} {vs : Array Value}

instance : Fact (Value.null.Fits strict) := ⟨fun _ => rfl⟩

instance (b : Bool) : Fact ((Value.bool b).Fits strict) := ⟨fun _ => rfl⟩

instance (n : Int) : Fact ((Value.int n).Fits strict) := ⟨fun _ => rfl⟩

instance (x : Float) : Fact ((Value.float x).Fits strict) := ⟨fun _ => rfl⟩

instance (s : String) : Fact ((Value.text s).Fits strict) := ⟨fun _ => rfl⟩

instance (l : Loc) : Fact ((Value.array l).Fits strict) := ⟨fun _ => rfl⟩

instance : Fact (∀ x ∈ ([] : List Value), x.Fits strict) := ⟨nofun⟩

instance [hv : Fact (v.Fits strict)] [h : Fact (∀ x ∈ xs, x.Fits strict)] :
    Fact (∀ x ∈ v :: xs, x.Fits strict) :=
  ⟨List.forall_mem_cons.2 ⟨hv.out, h.out⟩⟩

instance [h : Fact (∀ x ∈ vs, x.Fits strict)] : Fact (∀ x ∈ vs.toList, x.Fits strict) :=
  ⟨by simpa using h.out⟩

instance [h : Fact (∀ x ∈ xs, x.Fits strict)] : Fact (∀ x ∈ xs.toArray, x.Fits strict) :=
  ⟨by simpa using h.out⟩

instance {us : Array Value} [h : Fact (∀ x ∈ us, x.Fits strict)]
    [k : Fact (∀ x ∈ vs, x.Fits strict)] : Fact (∀ x ∈ us ++ vs, x.Fits strict) :=
  ⟨fun x hx => (Array.mem_append.1 hx).elim (h.out x) (k.out x)⟩

instance {α : Type} (f : α → String) (ys : List α) :
    Fact (∀ x ∈ ys.map fun y => Value.text (f y), x.Fits strict) := by
  refine ⟨fun x hx => ?_⟩
  obtain ⟨y, -, rfl⟩ := List.mem_map.1 hx
  exact fun _ => rfl

end

namespace Keeps

open ScriptLang.Action

variable {α β : Type} {x : Routine α} {Q : α → Prop}

instance (e : Halt) : Keeps strict (throw e : Routine α) fun _ => False := .throw trivial

instance (f : Fault) : Keeps strict (fail f : Routine α) fun _ => False := .fail f

instance (message : String) : Keeps strict (typeFault message : Routine α) fun _ => False := .fail _

instance (message : String) :
    Keeps strict (valueFault message : Routine α) fun _ => False := .fail _

instance (message : String) :
    Keeps strict (attributeFault message : Routine α) fun _ => False := .fail _

instance (message : String) :
    Keeps strict (runtimeFault message : Routine α) fun _ => False := .fail _

instance {xs : Array Value} [h : Fact (∀ x ∈ xs, x.Fits strict)] :
    Gives strict (newArray xs) := .newArray h.out

instance {xs : List Value} [h : Fact (∀ x ∈ xs, x.Fits strict)] :
    Gives strict (arrayOf xs) := .arrayOf h.out

instance {es : Entries} [h : Fact (Entries.Fits strict es)] :
    Gives strict (newObject es) := .newObject h.out

instance (s : String) : Keeps strict (printLine s) := .print _

theorem never [h : Keeps strict x fun _ => False] : Keeps strict x Q :=
  h.mono fun _ => False.elim

/-- By parts: a sequence by what comes first and what follows, a choice by its branches, a
repetition by one round, and a change of the setting by what it leaves alone. -/
theorem parts (h : Keeps strict x Q := by
    repeat' first
      | with_reducible infer_instance
      | with_reducible exact .any inferInstance
      | with_reducible exact Keeps.never
      | with_reducible exact .pure trivial
      | with_reducible exact .pure Fact.out
      | (with_reducible refine .leaf ?_) <;> rfl
      | split
      | with_reducible refine .first fun _ _ => ?_
      | with_reducible refine .tryCatch ?_ fun _ _ => ?_
      | with_reducible refine .onFault ?_ fun _ => ?_
      | with_reducible refine .forM fun _ _ => ?_
      | with_reducible refine .any (.mapM (S := fun _ => True) fun _ _ => ?_)
      | with_reducible refine .any (.filterM fun _ _ => ?_)
      | with_reducible refine .foldlM trivial fun _ _ _ _ => ?_
      | (with_reducible apply Policy.Ensures.aside) <;> (intro; rfl)
      | (with_reducible apply Policy.Ensures.asideGet) <;> (intro; first | rfl | trivial)
      | with_reducible refine .map (Q := fun _ => True) ?_ fun _ _ => trivial
      | with_reducible refine .bind (Q := fun _ => True) ?_ fun _ _ => ?_
      | dsimp only) : Keeps strict x Q :=
  h

end Keeps

end ScriptLang
