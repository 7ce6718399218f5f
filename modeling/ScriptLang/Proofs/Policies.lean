import Mathlib.Logic.Basic
import ScriptLang.Eval

/-!
# Policies

A policy says what computations in a state are held to: an invariant of the state, a relation
between the state at the start and the state at the end, and the ways they may end early. What
ensures a policy composes: it passes through sequencing, handlers and the loops over lists. The
policy `still` is that of computations that leave the state alone; they ensure every policy that
lets them end early. Many routines are of that kind: they only read (`Still`).
-/

namespace ScriptLang

section

variable {ε σ α : Type} {r : EStateM.Result ε σ α}

/-- Whether a computation ended with a value that passes a test. -/
def passes (test : α → Bool) : EStateM.Result ε σ α → Bool
  | .ok a _ => test a
  | .error _ _ => false

theorem exists_of_passes {test : α → Bool} (h : passes test r = true) :
    ∃ a s, r = .ok a s ∧ test a = true := by
  cases r with
  | ok a s => exact ⟨a, s, rfl, h⟩
  | error => cases h

/-- Whether a computation ended early, in a way that passes a test. -/
def fails (test : ε → Bool) : EStateM.Result ε σ α → Bool
  | .ok _ _ => false
  | .error e _ => test e

theorem exists_of_fails {test : ε → Bool} (h : fails test r = true) :
    ∃ e s, r = .error e s ∧ test e = true := by
  cases r with
  | ok => cases h
  | error e s => exact ⟨e, s, rfl, h⟩

end

def Halt.isFault : Halt → Bool
  | .fault _ => true
  | _ => false

def Signal.isFault : Signal → Bool
  | .fault _ => true
  | _ => false

/-- What computations in a state are held to. -/
structure Policy (ε σ : Type) where
  /-- holds at the start and at the end -/
  inv : σ → Prop
  /-- how the state may change -/
  rel : σ → σ → Prop
  /-- how a computation may end early -/
  halts : ε → Prop
  refl : ∀ s, rel s s
  trans : ∀ {a b c}, rel a b → rel b c → rel a c

namespace Policy

variable {ε σ α β : Type} {P : Policy ε σ}

/-- The ways to end from a state, with `Q` of the value. -/
def Ends (P : Policy ε σ) (Q : α → Prop) (s : σ) : EStateM.Result ε σ α → Prop
  | .ok a s' => P.inv s' ∧ P.rel s s' ∧ Q a
  | .error e s' => P.inv s' ∧ P.rel s s' ∧ P.halts e

/-- From every state with the invariant, a computation keeps to the policy, and its value has `Q`.
This is seen from how the computation is put together, so it is a class, which finds `Q`. -/
class Ensures (P : Policy ε σ) (x : EStateM ε σ α) (Q : outParam (α → Prop)) : Prop where
  ends : ∀ s, P.inv s → P.Ends Q s (x s)

variable {Q : α → Prop} {s : σ} {r : EStateM.Result ε σ α}

theorem Ends.mono {R : α → Prop} (h : P.Ends Q s r) (hQ : ∀ a, Q a → R a) : P.Ends R s r := by
  cases r with
  | ok a s' => exact ⟨h.1, h.2.1, hQ a h.2.2⟩
  | error e s' => exact h

theorem Ends.imp {P' : Policy ε σ} {s₀ : σ} (h : P.Ends Q s r)
    (hrel : ∀ s', P.inv s' → P.rel s s' → P'.inv s' ∧ P'.rel s₀ s')
    (hhalts : ∀ e, P.halts e → P'.halts e) : P'.Ends Q s₀ r := by
  cases r with
  | ok a s' =>
    obtain ⟨hinv, hchange⟩ := hrel s' h.1 h.2.1
    exact ⟨hinv, hchange, h.2.2⟩
  | error e s' =>
    obtain ⟨hinv, hchange⟩ := hrel s' h.1 h.2.1
    exact ⟨hinv, hchange, hhalts e h.2.2⟩

theorem Ends.after {s₁ : σ} (hrel : P.rel s s₁) (h : P.Ends Q s₁ r) : P.Ends Q s r :=
  h.imp (fun _ hinv h => ⟨hinv, P.trans hrel h⟩) fun _ => id

namespace Ensures

variable {x : EStateM ε σ α} {Q R : α → Prop}

/-! ## Sequencing -/

theorem mono (hx : P.Ensures x Q) (hQ : ∀ a, Q a → R a) : P.Ensures x R :=
  ⟨fun s hs => (hx.ends s hs).mono hQ⟩

theorem pure {a : α} (ha : Q a) : P.Ensures (pure a) Q :=
  ⟨fun s hs => ⟨hs, P.refl s, ha⟩⟩

theorem throw {e : ε} (he : P.halts e) : P.Ensures (throw e) Q :=
  ⟨fun s hs => ⟨hs, P.refl s, he⟩⟩

theorem get : P.Ensures MonadState.get P.inv :=
  ⟨fun s hs => ⟨hs, P.refl s, hs⟩⟩

variable {S : β → Prop} {f : α → EStateM ε σ β} {xs : List α}

theorem bind (hx : P.Ensures x Q) (hf : ∀ a, Q a → P.Ensures (f a) S) : P.Ensures (x >>= f) S := by
  refine ⟨fun s hs => ?_⟩
  have h := hx.ends s hs
  show P.Ends S s (EStateM.bind x f s)
  unfold EStateM.bind
  cases hrun : x s with
  | error e s₁ =>
    rw [hrun] at h
    exact h
  | ok a s₁ =>
    rw [hrun] at h
    obtain ⟨hinv, hrel, ha⟩ := h
    exact ((hf a ha).ends s₁ hinv).after hrel

theorem seq (hx : P.Ensures x Q) (hf : ∀ {a}, P.Ensures (f a) S) : P.Ensures (x >>= f) S :=
  hx.bind fun _ _ => hf

theorem give {g : α → β} (hx : P.Ensures x Q) :
    P.Ensures (x >>= fun a => Pure.pure (g a)) fun _ => True :=
  hx.seq <| .pure trivial

theorem ite {c : Prop} [Decidable c] {y : EStateM ε σ α} (hx : P.Ensures x Q) (hy : P.Ensures y Q) :
    P.Ensures (if c then x else y) Q := by
  split
  · exact hx
  · exact hy

theorem map {f : α → β} (hx : P.Ensures x Q) (hf : ∀ a, Q a → S (f a)) : P.Ensures (f <$> x) S := by
  rw [map_eq_pure_bind]
  exact hx.bind fun a ha => .pure (hf a ha)

theorem discard (hx : P.Ensures x Q) : P.Ensures (discard x) fun _ => True :=
  hx.map fun _ _ => trivial

theorem tryCatch {handler : ε → EStateM ε σ α} (hx : P.Ensures x Q)
    (hh : ∀ e, P.halts e → P.Ensures (handler e) Q) : P.Ensures (tryCatch x handler) Q := by
  refine ⟨fun s hs => ?_⟩
  have h := hx.ends s hs
  show P.Ends Q s (EStateM.tryCatch x handler s)
  unfold EStateM.tryCatch
  cases hrun : x s with
  | ok a s₁ =>
    rw [hrun] at h
    exact h
  | error e s₁ =>
    rw [hrun] at h
    obtain ⟨hinv, hrel, he⟩ := h
    exact ((hh e he).ends s₁ hinv).after hrel

theorem change {f : σ → σ} (hf : ∀ s, P.inv s → P.inv (f s) ∧ P.rel s (f s)) :
    P.Ensures (modify f) fun _ => True :=
  ⟨fun s hs => ⟨(hf s hs).1, (hf s hs).2, trivial⟩⟩

theorem changeGet {f : σ → α × σ}
    (hf : ∀ s, P.inv s → P.inv (f s).2 ∧ P.rel s (f s).2 ∧ Q (f s).1) : P.Ensures (modifyGet f) Q :=
  ⟨fun s hs => hf s hs⟩

/-! ## Loops over lists -/

theorem forM {f : α → EStateM ε σ PUnit} (h : ∀ x ∈ xs, P.Ensures (f x) fun _ => True) :
    P.Ensures (xs.forM f) fun _ => True := by
  induction xs with
  | nil => exact .pure trivial
  | cons x xs ih =>
    rw [List.forall_mem_cons] at h
    exact h.1.seq <| ih h.2

theorem mapM (h : ∀ x ∈ xs, P.Ensures (f x) S) : P.Ensures (xs.mapM f) fun ys => ∀ y ∈ ys, S y := by
  induction xs with
  | nil => exact .pure (by simp)
  | cons x xs ih =>
    rw [List.forall_mem_cons] at h
    rw [List.mapM_cons]
    refine h.1.bind fun y hy => (ih h.2).bind fun ys hys => .pure ?_
    exact List.forall_mem_cons.2 ⟨hy, hys⟩

theorem foldlM {f : β → α → EStateM ε σ β} {b : β} (hb : S b)
    (h : ∀ x ∈ xs, ∀ b, S b → P.Ensures (f b x) S) : P.Ensures (xs.foldlM f b) S := by
  induction xs generalizing b with
  | nil => exact .pure hb
  | cons x xs ih =>
    rw [List.forall_mem_cons] at h
    exact (h.1 b hb).bind fun b' hb' => ih hb' h.2

theorem filterM {f : α → EStateM ε σ Bool} (h : ∀ x ∈ xs, P.Ensures (f x) fun _ => True) :
    P.Ensures (xs.filterM f) fun ys => ys.Sublist xs := by
  -- the loop puts items before those that it has kept of the ones it is done with
  have loop (rest done acc : List α) (hrest : ∀ x ∈ rest, P.Ensures (f x) fun _ => True)
      (hacc : acc.reverse.Sublist done) :
      P.Ensures (rest.filterAuxM f acc) fun ys => ys.reverse.Sublist (done ++ rest) := by
    induction rest generalizing done acc with
    | nil => exact .pure (by simpa using hacc)
    | cons x rest ih =>
      rw [List.forall_mem_cons] at hrest
      refine hrest.1.bind fun b _ => ?_
      rw [List.append_cons]
      refine ih (done ++ [x]) _ hrest.2 ?_
      cases b with
      | false => exact hacc.trans (List.sublist_append_left _ _)
      | true => simpa using hacc.append (List.Sublist.refl [x])
  exact (loop xs [] [] h (List.Sublist.refl _)).bind fun ys hys => .pure hys

theorem filterMapM {f : α → EStateM ε σ (Option β)} (h : ∀ x ∈ xs, P.Ensures (f x) fun o =>
    ∀ y ∈ o, S y) : P.Ensures (xs.filterMapM f) fun ys => ∀ y ∈ ys, S y := by
  induction xs with
  | nil => exact .pure (by simp)
  | cons x xs ih =>
    rw [List.forall_mem_cons] at h
    rw [List.filterMapM_cons]
    refine h.1.bind fun o ho => ?_
    cases o with
    | none => exact ih h.2
    | some y =>
      refine (ih h.2).bind fun ys hys => .pure ?_
      exact List.forall_mem_cons.2 ⟨ho y rfl, hys⟩

theorem forM? {o : Option α} {f : α → EStateM ε σ PUnit}
    (h : ∀ a ∈ o, P.Ensures (f a) fun _ => True) : P.Ensures (o.forM f) fun _ => True := by
  cases o with
  | none => exact .pure trivial
  | some a => exact h a rfl

theorem mapM? {o : Option α} (h : ∀ a ∈ o, P.Ensures (f a) S) :
    P.Ensures (o.mapM f) fun b => ∀ y ∈ b, S y := by
  cases o with
  | none => exact .pure (by simp)
  | some a => exact (h a rfl).map fun b hb => by simpa using hb

/-! ## By parts -/

theorem any (h : P.Ensures x Q) : P.Ensures x fun _ => True :=
  h.mono fun _ _ => trivial

theorem first [hx : P.Ensures x Q] (hf : ∀ a, Fact (Q a) → P.Ensures (f a) S) :
    P.Ensures (x >>= f) S :=
  hx.bind fun a ha => hf a ⟨ha⟩

instance : P.Ensures (MonadState.get : EStateM ε σ σ) P.inv := .get

instance (a : α) : P.Ensures (Pure.pure a) (· = a) := .pure rfl

instance [hx : P.Ensures x Q] : P.Ensures (Functor.discard x) fun _ => True := hx.discard

end Ensures

variable {x : EStateM ε σ α} {Q : α → Prop}

/-- A computation ends early or in a value, and has changed the state as the policy allows. -/
theorem Ensures.cases (hx : P.Ensures x Q) {s : σ} (hs : P.inv s) :
    (∃ e s', x s = .error e s' ∧ P.rel s s' ∧ P.halts e) ∨ ∃ a s', x s = .ok a s' ∧
    P.rel s s' ∧ Q a := by
  have h := hx.ends s hs
  cases hrun : x s with
  | error e s' =>
    rw [hrun] at h
    exact .inl ⟨e, s', rfl, h.2⟩
  | ok a s' =>
    rw [hrun] at h
    exact .inr ⟨a, s', rfl, h.2⟩

theorem Ensures.rel_of_ok (hx : P.Ensures x Q) {s s' : σ} (hs : P.inv s) {a : α}
    (h : x s = .ok a s') : P.rel s s' := by
  have hends := hx.ends s hs
  rw [h] at hends
  exact hends.2.1

theorem Ensures.rel_of_error (hx : P.Ensures x Q) {s s' : σ} (hs : P.inv s) {e : ε}
    (h : x s = .error e s') : P.rel s s' := by
  have hends := hx.ends s hs
  rw [h] at hends
  exact hends.2.1

/-! ## Computations that leave the state alone -/

/-- The state stays as it is. -/
def still : Policy ε σ where
  inv _ := True
  rel := Eq
  halts _ := True
  refl _ := rfl
  trans := Eq.trans

/-- What `f` reads of the state stays as it is. -/
def keeping {γ : Type} (f : σ → γ) : Policy ε σ where
  inv _ := True
  rel s s' := f s' = f s
  halts _ := True
  refl _ := rfl
  trans h h' := h'.trans h

theorem Ensures.coarsen {P' : Policy ε σ} (hx : P'.Ensures x Q) (hinv : ∀ s, P.inv s → P'.inv s)
    (hrel : ∀ s s', P.inv s → P'.inv s' → P'.rel s s' → P.inv s' ∧ P.rel s s')
    (hhalts : ∀ e, P'.halts e → P.halts e) : P.Ensures x Q :=
  ⟨fun s hs => (hx.ends s (hinv s hs)).imp (fun s' => hrel s s' hs) hhalts⟩

theorem Ensures.of_still (hx : still.Ensures x Q) (hhalts : ∀ e, P.halts e) : P.Ensures x Q :=
  hx.coarsen (fun _ _ => trivial) (fun s _ hs _ h => h ▸ ⟨hs, P.refl s⟩) fun e _ => hhalts e

/-- What a routine ensures of the setting it ensures of the world, where the policies go
together. -/
theorem Ensures.performed {P : Policy Halt Setting} {P' : Policy Signal World} {r : Routine α}
    (h : P.Ensures r Q) (hinv : ∀ w, P'.inv w → P.inv w.toSetting)
    (hrel : ∀ (w : World) (s : Setting), P'.inv w → P.inv s → P.rel w.toSetting s →
      P'.inv { s with code := w.code } ∧ P'.rel w { s with code := w.code })
    (hhalts : ∀ e : Halt, P'.halts e.signal) : P'.Ensures (liftM r : Action α) Q := by
  refine ⟨fun w hw => ?_⟩
  have hends := h.ends w.toSetting (hinv w hw)
  show P'.Ends Q w (r.perform w)
  unfold Routine.perform
  cases hrun : r w.toSetting with
  | ok a s =>
    rw [hrun] at hends
    have hw' := hrel w s hw hends.1 hends.2.1
    exact ⟨hw'.1, hw'.2, hends.2.2⟩
  | error e s =>
    rw [hrun] at hends
    have hw' := hrel w s hw hends.1 hends.2.1
    exact ⟨hw'.1, hw'.2, hhalts e⟩

/-! ## Computations from a known state -/

/-- From one state, if it has the invariant, a computation keeps to the policy. -/
structure EnsuresAt (P : Policy ε σ) (s : σ) (x : EStateM ε σ α) (Q : α → Prop) : Prop where
  ends : P.inv s → P.Ends Q s (x s)

theorem Ensures.get_bind {f : σ → EStateM ε σ α} (hf : ∀ s, P.EnsuresAt s (f s) Q) :
    P.Ensures (MonadState.get >>= f) Q :=
  ⟨fun s hs => (hf s).ends hs⟩

namespace EnsuresAt

variable {s s' : σ} {x : EStateM ε σ α} {Q : α → Prop}

theorem of_ensures (hx : P.Ensures x Q) : P.EnsuresAt s x Q :=
  ⟨hx.ends s⟩

theorem ite {c : Prop} [Decidable c] {y : EStateM ε σ α} (hx : P.EnsuresAt s x Q)
    (hy : P.EnsuresAt s y Q) : P.EnsuresAt s (if c then x else y) Q := by
  split
  · exact hx
  · exact hy

theorem set (hinv : P.inv s → P.inv s') (hrel : P.rel s s') :
    P.EnsuresAt s (set s') fun _ => True :=
  ⟨fun hs => ⟨hinv hs, hrel, trivial⟩⟩

theorem set_bind {f : PUnit → EStateM ε σ α} (hinv : P.inv s → P.inv s') (hrel : P.rel s s')
    (hf : P.Ensures (f ⟨⟩) Q) : P.EnsuresAt s (MonadStateOf.set s' >>= f) Q :=
  ⟨fun hs => (hf.ends s' (hinv hs)).after hrel⟩

/-- After a computation that leaves the state alone, the state is still the known one. -/
theorem still_bind {R : α → Prop} {S : β → Prop} {f : α → EStateM ε σ β} (hx : still.Ensures x R)
    (hhalts : ∀ e, P.halts e) (hf : ∀ a, R a → P.EnsuresAt s (f a) S) :
    P.EnsuresAt s (x >>= f) S := by
  refine ⟨fun hs => ?_⟩
  have h := hx.ends s trivial
  show P.Ends S s (EStateM.bind x f s)
  unfold EStateM.bind
  cases hrun : x s with
  | ok a s₁ =>
    rw [hrun] at h
    obtain ⟨-, rfl, ha⟩ := h
    exact (hf a ha).ends hs
  | error e s₁ =>
    rw [hrun] at h
    obtain ⟨-, rfl, -⟩ := h
    exact ⟨hs, P.refl s, hhalts e⟩

end EnsuresAt

/-- The policy for what goes on from a state: it knows of the changes since. -/
def since (P : Policy ε σ) (s₀ : σ) : Policy ε σ :=
  { P with inv := fun s => P.inv s ∧ P.rel s₀ s }

theorem Ensures.since {x : EStateM ε σ α} {Q : α → Prop} (hx : P.Ensures x Q) (s₀ : σ) :
    (P.since s₀).Ensures x Q :=
  ⟨fun s hs => (hx.ends s hs.1).imp (fun _ hinv hrel => ⟨⟨hinv, P.trans hs.2 hrel⟩, hrel⟩) fun _ =>
    id⟩

theorem Ensures.ends_since {x : EStateM ε σ α} {Q : α → Prop} {s : σ} (hx : (P.since s).Ensures x Q)
    (hs : P.inv s) : P.Ends Q s (x s) :=
  (hx.ends s ⟨hs, P.refl s⟩).imp (fun _ hinv hrel => ⟨hinv.1, hrel⟩) fun _ => id

end Policy

section

variable {ε σ α β : Type} {m : EStateM ε σ α} {k : α → EStateM ε σ β} {s₀ s₁ : σ} {a : α} {b : β}

theorem bind_eq_ok (h : (m >>= k) s₀ = .ok b s₁) : ∃ a s', m s₀ = .ok a s' ∧ k a s' = .ok b s₁ := by
  change EStateM.bind m k s₀ = _ at h
  unfold EStateM.bind at h
  cases hrun : m s₀ with
  | error e s' =>
    rw [hrun] at h
    contradiction
  | ok a s' =>
    rw [hrun] at h
    exact ⟨a, s', rfl, h⟩

theorem bind_eq_error {e : ε} (h : (m >>= k) s₀ = .error e s₁) :
    m s₀ = .error e s₁ ∨ ∃ a s', m s₀ = .ok a s' ∧ k a s' = .error e s₁ := by
  change EStateM.bind m k s₀ = _ at h
  unfold EStateM.bind at h
  cases hrun : m s₀ with
  | error e' s' =>
    rw [hrun] at h
    cases h
    exact .inl rfl
  | ok a s' =>
    rw [hrun] at h
    exact .inr ⟨a, s', rfl, h⟩

theorem bind_ok (h : m s₀ = .ok a s₁) : (m >>= k) s₀ = k a s₁ := by
  show EStateM.bind m k s₀ = _
  unfold EStateM.bind
  rw [h]

theorem bind_error {e : ε} (h : m s₀ = .error e s₁) : (m >>= k) s₀ = .error e s₁ := by
  show EStateM.bind m k s₀ = _
  unfold EStateM.bind
  rw [h]

end

open ScriptLang.Action

/-! ## Routines that only read -/

/-- A routine leaves the setting as it is, however it ends. -/
abbrev Still {α : Type} (x : Routine α) : Prop :=
  Policy.still.Ensures x fun _ => True

namespace Still

variable {α β : Type} {x : Routine α}

theorem bind {f : α → Routine β} (hx : Still x) (hf : ∀ a, Still (f a)) : Still (x >>= f) :=
  Policy.Ensures.bind hx fun a _ => hf a

theorem done (a : α) : Still (pure a : Routine α) :=
  .pure trivial

theorem fail (f : Fault) : Still (Action.fail f : Routine α) :=
  .throw trivial

theorem ofExcept (r : Except Fault α) : Still (Action.ofExcept r) := by
  cases r with
  | ok a => exact .done a
  | error f => exact .fail f

theorem ite {c : Prop} [Decidable c] {y : Routine α} (hx : Still x) (hy : Still y) :
    Still (if c then x else y) :=
  Policy.Ensures.ite hx hy

theorem eq_of_ok (hx : Still x) {s s' : Setting} {a : α} (h : x s = .ok a s') : s' = s :=
  (Policy.Ensures.rel_of_ok hx trivial h).symm

theorem bind_eq_ok {f : α → Routine β} {s s' : Setting} {b : β} (hx : Still x)
    (h : (x >>= f) s = .ok b s') : ∃ a, x s = .ok a s ∧ f a s = .ok b s' := by
  obtain ⟨a, s₁, hrun, hrest⟩ := ScriptLang.bind_eq_ok h
  cases hx.eq_of_ok hrun
  exact ⟨a, hrun, hrest⟩

end Still

theorem Still.get_bind {α : Type} {f : Setting → Routine α} (hf : ∀ s, Still (f s)) :
    Still (get >>= f) :=
  Policy.Ensures.get.bind fun s _ => hf s

namespace Action

theorem heap_still : Still heap :=
  .get_bind fun _ => .done _

theorem items_still (l : Loc) : Still (items l) :=
  .get_bind fun _ => .done _

theorem entries_still (l : Loc) : Still (entries l) :=
  .get_bind fun _ => .done _

instance text_still (v : Value) : Still (text v) :=
  .get_bind fun _ => .ofExcept _

instance quote_still (v : Value) : Still (quote v) :=
  .get_bind fun _ => .ofExcept _

instance truthy_still (v : Value) : Still (truthy v) :=
  heap_still.bind fun _ => .done _

instance equal_still (v w : Value) : Still (equal v w) := by
  unfold equal
  split
  · exact .done _
  · exact heap_still.bind fun _ => .ofExcept _

instance hashable_still (v : Value) : Still (hashable v) := by
  unfold hashable
  split
  · exact .fail _
  · exact .done _

instance sizedInteger_still (v : Value) : Still (sizedInteger v) :=
  (Still.ofExcept _).bind fun _ => .ite (.done _) (.fail _)

theorem iterate_still (v : Value) : Still (iterate v) := by
  unfold iterate
  split
  · exact .done _
  · exact .done _
  · exact .done _
  · exact (items_still _).bind fun _ => .done _
  · exact (entries_still _).bind fun _ => .done _
  · exact .fail _

instance contains_still (container v : Value) : Still (contains container v) := by
  unfold contains
  split
  · split
    · exact .done _
    · exact .fail _
  · split
    · exact .done _
    · split
      · exact .ite (.done _) (.fail _)
      · exact .fail _
  · exact heap_still.bind fun _ => .ofExcept _
  · exact heap_still.bind fun _ => (items_still _).bind fun _ => .ofExcept _
  · exact (hashable_still v).bind fun _ => (entries_still _).bind fun _ => .done _
  · exact .fail _

instance placeIn_still (type : String) (size : Nat) (index : Value) :
    Still (placeIn type size index) := by
  unfold placeIn
  split
  · exact .ite (.fail _) (.fail _)
  · refine (Still.ofExcept _).bind fun _ => ?_
    split
    · exact .done _
    · exact .fail _

theorem getItem_still (container key : Value) : Still (getItem container key) := by
  unfold getItem
  split
  · exact (placeIn_still _ _ _).bind fun _ => .done _
  · exact (placeIn_still _ _ _).bind fun _ => .done _
  · exact (placeIn_still _ _ _).bind fun _ => .done _
  · exact (items_still _).bind fun _ => (placeIn_still _ _ _).bind fun _ => .done _
  · refine (hashable_still _).bind fun _ => (entries_still _).bind fun _ => ?_
    split
    · exact .done _
    · exact (quote_still _).bind fun _ => .fail _
  · exact .fail _
  · exact .fail _

theorem readText_still (path : String) : Still (readText path) := by
  refine Still.bind (.get_bind fun s => ?_) fun b => Still.bind ?_ fun _ => .done _
  · cases s.files.read s.cwd path with
    | ok b => exact .done _
    | error e => exact .fail _
  · unfold decodeText
    split
    · exact .done _
    · exact .fail _

end Action

namespace Library

theorem noAttribute_still {α : Type} (v : Value) (name : String) :
    Still (noAttribute v name : Routine α) := by
  unfold noAttribute
  split <;> exact .fail _

instance noArguments_still (owner name : String) (args : List Value) :
    Still (noArguments owner name args) :=
  .ite (.done _) (.fail _)

theorem oneArgument_still (owner name : String) (args : List Value) :
    Still (oneArgument owner name args) := by
  unfold oneArgument
  split
  · exact .done _
  · exact .fail _

instance argumentRange_still (name : String) (least most : Nat) (args : List Value) :
    Still (argumentRange name least most args) :=
  .ite (.fail _) (.ite (.fail _) (.ite (.fail _) (.done _)))

theorem sorted_still (xs : List Value) : Still (sorted xs) :=
  heap_still.bind fun _ => (Still.ofExcept _).bind fun _ => .done _

theorem partBound_still (length : Nat) (v : Value) : Still (partBound length v) := by
  unfold partBound
  split
  · exact .done _
  · exact .fail _

instance indexMethod_still (xs args : List Value) : Still (indexMethod xs args) :=
  (argumentRange_still _ _ _ _).bind fun _ => (partBound_still _ _).bind fun _ =>
    (partBound_still _ _).bind fun _ => heap_still.bind fun _ => .ofExcept _

theorem countItems_still (xs : List Value) (v : Value) : Still (countItems xs v) :=
  heap_still.bind fun _ => (Still.ofExcept _).bind fun _ => .done _

end Library

end ScriptLang
