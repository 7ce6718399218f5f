import ScriptLang.Proofs.SharedDefaults
import ScriptLang.Proofs.StoredValues

/-!
# Cells that are left alone

Some routines change one container in place, and may make new ones (`Setting.Touches`). All ways to
change an array or an object in place are of that kind (`Change.run_touches`), and so is any number
of them one after the other (`Change.all_touches`): every other container is then as it was.
-/

namespace ScriptLang

open ScriptLang.Action

/-! ## Changes of one container -/

/-- The change from one setting to another in which cells are added, those that were there stay as
they are except `own`, and nothing else changes but perhaps the floats that are not numbers. -/
structure Setting.Touches (own : Option Loc) (s s' : Setting) : Prop where
  cells : ∀ (k : Loc) (c : Cell), own ≠ some k → s.heap.cells[k]? = some c →
    s'.heap.cells[k]? = some c
  rest : s' = { s with heap := s'.heap, nans := s'.nans }

theorem Setting.Touches.refl (own : Option Loc) (s : Setting) : s.Touches own s :=
  ⟨fun _ _ _ h => h, rfl⟩

theorem Setting.Touches.trans {own : Option Loc} {s s₁ s₂ : Setting} (h₁ : s.Touches own s₁)
    (h₂ : s₁.Touches own s₂) : s.Touches own s₂ where
  cells k c hk hc := h₂.cells k c hk (h₁.cells k c hk hc)
  rest := by
    rw [h₂.rest, h₁.rest]

theorem Setting.touches_none {s s' : Setting} : s.Touches none s' ↔ s.Grows s' :=
  ⟨fun h => ⟨fun k c => h.cells k c nofun, h.rest⟩, fun h => ⟨fun k c _ => h.cells k c, h.rest⟩⟩

/-- Routines that change one container in place at most. -/
def touching (own : Option Loc) : Policy Halt Setting where
  inv _ := True
  rel := Setting.Touches own
  halts _ := True
  refl := .refl own
  trans := .trans

/-- A routine changes one container in place at most, however it ends. -/
abbrev TouchesOnly {α : Type} (own : Option Loc) (x : Routine α) : Prop :=
  (touching own).Ensures x fun _ => True

namespace TouchesOnly

variable {α β : Type} {own : Option Loc} {x : Routine α}

theorem of_still (hx : Still x) : TouchesOnly own x :=
  Policy.Ensures.of_still hx fun _ => trivial

theorem bind {f : α → Routine β} (hx : TouchesOnly own x) (hf : ∀ a, TouchesOnly own (f a)) :
    TouchesOnly own (x >>= f) :=
  Policy.Ensures.bind hx fun a _ => hf a

theorem after {f : α → Routine β} (hx : Still x) (hf : ∀ a, TouchesOnly own (f a)) :
    TouchesOnly own (x >>= f) :=
  (of_still hx).bind hf

theorem of_ok (hx : TouchesOnly own x) {s s' : Setting} {a : α} (h : x s = .ok a s') :
    s.Touches own s' := by
  have hends := hx.ends s trivial
  rw [h] at hends
  exact hends.2.1

theorem done (a : α) : TouchesOnly own (pure a : Routine α) :=
  .pure trivial

theorem fail (f : Fault) : TouchesOnly own (Action.fail f : Routine α) :=
  .throw trivial

theorem ite {c : Prop} [Decidable c] {y : Routine α} (hx : TouchesOnly own x)
    (hy : TouchesOnly own y) : TouchesOnly own (if c then x else y) :=
  Policy.Ensures.ite hx hy

theorem alloc (c : Cell) : TouchesOnly own (Action.alloc c) :=
  .changeGet fun s _ => ⟨trivial, ⟨fun k c' _ => (Setting.Grows.push s c).cells k c', rfl⟩, trivial⟩

theorem newArray (xs : Array Value) : TouchesOnly own (Action.newArray xs) :=
  (alloc _).map fun _ _ => trivial

theorem modifyCell (l : Loc) (f : Cell → Cell) : TouchesOnly (some l) (Action.modifyCell l f) := by
  refine .change fun s _ => ⟨trivial, fun k c hk hc => ?_, rfl⟩
  show (s.heap.cells.modify l f)[k]? = _
  rw [Array.getElem?_modify, if_neg (by simpa using hk), hc]

theorem modifyItems (l : Loc) (f : Array Value → Array Value) :
    TouchesOnly (some l) (Action.modifyItems l f) :=
  after heap_still fun _ => .ite (.throw trivial) (modifyCell l _)

theorem setItems (l : Loc) (xs : Array Value) : TouchesOnly (some l) (Action.setItems l xs) :=
  modifyItems l _

theorem modifyEntries (l : Loc) (f : Entries → Entries) :
    TouchesOnly (some l) (Action.modifyEntries l f) :=
  modifyCell l _

end TouchesOnly

theorem plus_touches (v w : Value) : TouchesOnly none (add.plus v w) := by
  unfold add.plus
  split
  · exact .after (items_still _) fun _ => .after (items_still _) fun _ => .newArray _
  · exact .fail _
  · exact .done _
  · exact .fail _
  · exact .done _
  · exact .fail _
  · exact .done _
  · exact .fail _
  · split
    · refine .after (Still.ofExcept _) fun n => ?_
      cases n with
      | whole n => exact .done _
      | real x =>
        -- a result that is no number gets an identity of its own
        refine .ite ?_ (.done _)
        exact .changeGet fun s _ => ⟨trivial, ⟨fun _ _ _ hc => hc, rfl⟩, trivial⟩
    · exact .fail _

/-- A value is the container at a location. -/
inductive Value.ContainerAt (l : Loc) : Value → Prop
  | array : ContainerAt l (.array l)
  | object : ContainerAt l (.object l)

section

variable {l : Loc} {v : Value}

theorem setItem_touches (hv : v.ContainerAt l) (key x : Value) :
    TouchesOnly (some l) (setItem v key x) := by
  cases hv with
  | array =>
    refine .after (items_still l) fun xs => ?_
    split
    · exact .fail _
    · refine .after (Still.ofExcept _) fun _ => ?_
      split
      · exact .modifyItems l _
      · exact .fail _
  | object => exact .after (hashable_still key) fun _ => .modifyEntries l _

theorem callArrayMethod_touches (l : Loc) (name : String) (args : List Value) :
    TouchesOnly (some l) (Library.callArrayMethod l name args) := by
  have ended {r : Routine Unit} (hr : TouchesOnly (some l) r) :
      TouchesOnly (some l) (do r; return .null : Routine Value) := hr.bind fun _ => .done _
  unfold Library.callArrayMethod
  split
  · exact .after (Library.oneArgument_still _ _ _) fun _ => ended (.modifyItems l _)
  · exact .after (Library.oneArgument_still _ _ _) fun _ => .after (iterate_still _) fun _ =>
      ended (.modifyItems l _)
  · exact .after (Library.argumentRange_still _ _ _ _) fun _ =>
      .after (sizedInteger_still _) fun _ =>
      ended (.modifyItems l _)
  · refine .after (Library.argumentRange_still _ _ _ _) fun _ =>
      .after (sizedInteger_still _) fun _ =>
      .after (items_still l) fun xs => .ite (.fail _) ?_
    split
    · exact .fail _
    · exact .bind (.setItems l _) fun _ => .done _
  · refine .after (Library.oneArgument_still _ _ _) fun _ => .after (items_still l) fun xs =>
      .after heap_still fun _ => .after (Still.ofExcept _) fun place => ?_
    split
    · exact .fail _
    · exact ended (.setItems l _)
  · refine .after (items_still l) fun xs => .after (Library.indexMethod_still _ _) fun place => ?_
    split
    · exact .done _
    · exact .after (quote_still _) fun _ => .fail _
  · exact .after (Library.oneArgument_still _ _ _) fun _ => .after (items_still l) fun _ =>
      .of_still (Library.countItems_still _ _)
  · exact .ite (.after (items_still l) fun _ => .after (Library.sorted_still _) fun _ =>
      ended (.setItems l _)) (.fail _)
  · exact .after (Library.noArguments_still _ _ _) fun _ => ended (.modifyItems l _)
  · exact .after (Library.noArguments_still _ _ _) fun _ => .after (items_still l) fun _ =>
      .newArray _
  · exact .after (Library.noArguments_still _ _ _) fun _ => ended (.setItems l _)
  · exact .done _

theorem callBound_touches (hv : v.ContainerAt l) (name : String) (args : List Value) :
    TouchesOnly (some l) (v.callBound name args) := by
  cases hv with
  | array => exact callArrayMethod_touches l name args
  | object => exact .after (Library.noArguments_still _ _ _) fun _ => .done _

theorem assignIndex_touches (hv : v.ContainerAt l) (key x : Value) :
    TouchesOnly (some l) (assignIndex v key x) := by
  cases hv with
  | array =>
    refine Policy.Ensures.tryCatch (TouchesOnly.after (Still.ofExcept _) fun _ =>
      setItem_touches .array _ x) fun e _ => ?_
    cases e with
    | fault f => exact TouchesOnly.ite (.fail _) (.fail _)
    | _ => exact .throw trivial
  | object => exact .after (text_still key) fun _ => .modifyEntries l _

end

/-! ## Settings in the end -/

/-- The setting in which a routine ends, whether in a value or not. -/
def Routine.final {α : Type} (x : Routine α) (s : Setting) : Setting :=
  match x s with
  | .ok _ s' | .error _ s' => s'

variable {α : Type} {x : Routine α} {s s' : Setting}

theorem Routine.final_ok {a : α} (h : x s = .ok a s') : x.final s = s' := by
  rw [Routine.final, h]

theorem Routine.final_error {e : Halt} (h : x s = .error e s') : x.final s = s' := by
  rw [Routine.final, h]

theorem Routine.final_bind {β : Type} {f : α → Routine β} {a : α} (h : x s = .ok a s') :
    (x >>= f).final s = (f a).final s' := by
  rw [Routine.final, bind_ok h, Routine.final]

/-- However a routine ends that keeps to a policy, the setting is then as the policy asks. -/
theorem Policy.Ensures.final_routine {P : Policy Halt Setting} {Q : α → Prop} (h : P.Ensures x Q)
    (hs : P.inv s) : P.rel s (x.final s) := by
  have hends := h.ends s hs
  cases hrun : x s with
  | ok a s' =>
    rw [hrun] at hends
    rw [Routine.final_ok hrun]
    exact hends.2.1
  | error e s' =>
    rw [hrun] at hends
    rw [Routine.final_error hrun]
    exact hends.2.1

/-! ## Changes in place -/

/-- The change from one world to another in which one container is changed at most. -/
structure World.Touches (own : Option Loc) (w w' : World) : Prop where
  code : w'.code = w.code
  setting : w.toSetting.Touches own w'.toSetting

theorem World.Touches.refl (own : Option Loc) (w : World) : w.Touches own w :=
  ⟨rfl, .refl own _⟩

theorem World.Touches.trans {own : Option Loc} {w w₁ w₂ : World} (h₁ : w.Touches own w₁)
    (h₂ : w₁.Touches own w₂) : w.Touches own w₂ :=
  ⟨h₂.code.trans h₁.code, h₁.setting.trans h₂.setting⟩

theorem Routine.final_code (x : Routine α) (w : World) :
    ((liftM x : Action α).final w).code = w.code := by
  show (Action.final x.perform w).code = _
  rw [Action.final, Routine.perform]
  cases x w.toSetting <;> rfl

theorem Routine.final_toSetting (x : Routine α) (w : World) :
    ((liftM x : Action α).final w).toSetting = x.final w.toSetting := by
  show (Action.final x.perform w).toSetting = _
  rw [Action.final, Routine.perform, Routine.final]
  cases x w.toSetting <;> rfl

theorem Policy.Ensures.final_lift {P : Policy Halt Setting} {Q : α → Prop} (h : P.Ensures x Q)
    {w : World} (hw : P.inv w.toSetting) :
    P.rel w.toSetting ((liftM x : Action α).final w).toSetting := by
  rw [Routine.final_toSetting]
  exact h.final_routine hw

theorem TouchesOnly.final {own : Option Loc} (h : TouchesOnly own x) (w : World) :
    w.Touches own ((liftM x : Action α).final w) :=
  ⟨Routine.final_code x w, h.final_lift trivial⟩

namespace Change

variable {l : Loc} {v : Value}

theorem final_discard {α : Type} (x : Action α) (w : World) : (discard x).final w = x.final w := by
  rw [Action.final, Action.final]
  have hmap : discard x w = EStateM.map (fun _ => ()) x w := rfl
  rw [hmap, EStateM.map]
  cases x w <;> rfl

theorem run_touches (hv : v.ContainerAt l) (c : Change) (w : World) :
    w.Touches (some l) ((c.run v).final w) := by
  have lifted {x : Routine Value} (hx : TouchesOnly (some l) x) :
      w.Touches (some l) ((discard (liftM x : Action Value)).final w) := by
    rw [final_discard]
    exact hx.final w
  cases c with
  | push x | unshift x =>
    cases hv with
    | array => exact lifted ((TouchesOnly.modifyItems l _).bind fun _ => .done _)
    | object => exact lifted (.done _)
  | pop | shift =>
    cases hv with
    | array =>
      exact lifted (.after (items_still l) fun _ => (TouchesOnly.modifyItems l _).bind fun _ =>
        .done _)
    | object => exact lifted (.done _)
  | index key x => exact (assignIndex_touches hv key x).final w
  | member name x =>
    cases hv with
    | array => exact (TouchesOnly.fail _).final w
    | object => exact (TouchesOnly.modifyEntries l _).final w
  | method name args => exact lifted (callBound_touches hv name args)

/-- The world after changes of a value in place, one after the other, however each ends. -/
def all (v : Value) (cs : List Change) (w : World) : World :=
  cs.foldl (fun w c => (c.run v).final w) w

theorem all_touches (hv : v.ContainerAt l) (cs : List Change) (w : World) :
    w.Touches (some l) (all v cs w) := by
  induction cs generalizing w with
  | nil => exact .refl _ w
  | cons c cs ih => exact (run_touches hv c w).trans (ih _)

theorem all_evolves {w₀ : World} (hv : w₀.Container v) (cs : List Change) (w : World) :
    w.heap.Evolves Cell.shell none (all v cs w).heap := by
  induction cs generalizing w with
  | nil => exact .refl _
  | cons c cs ih => exact ((run_ensures hv c).final (w := w) trivial).2.2.trans (ih _)

end Change

end ScriptLang
