import Mathlib.Data.List.Basic
import ScriptLang.Package.Gui
import ScriptLang.Proofs.Policies

/-!
# Names of widgets

A widget is named by its kind and a number, the count of the widgets that were begun so far. The
count never goes back, so a name is new when it is given. Nothing takes a name back or gives it to
another widget, neither closing a window nor a widget that cannot be built.
-/

namespace ScriptLang

/-- What a widget is, whatever a click calls: its kind, its object and its flag. -/
def Widget.identity (w : Widget) : WidgetKind × Nat × Nat :=
  (w.kind, w.object, w.flag)

/-- The names that are given, and the widgets they are given to. -/
def Setting.registry (s : Setting) : List (String × WidgetKind × Nat × Nat) :=
  s.gui.widgets.map fun p => (p.1, p.2.identity)

theorem Setting.lookup_registry (s : Setting) (name : String) :
    s.registry.lookup name = (s.gui.widgets.lookup name).map Widget.identity := by
  unfold registry
  induction s.gui.widgets with
  | nil => rfl
  | cons p ps ih =>
    obtain ⟨name', w⟩ := p
    simp only [List.map_cons, List.lookup_cons]
    cases name == name' with
    | true => rfl
    | false => exact ih

/-- The kind of widget that a function adds, if it adds one. -/
def GuiFn.adds? : GuiFn → Option WidgetKind
  | .addButton => some .button
  | .addLabel => some .label
  | .addTextBox => some .textbox
  | .addTextArea => some .textarea
  | .addCheckbox => some .checkbox
  | .addListBox => some .listbox
  | _ => none

namespace Package

open ScriptLang.Action ScriptLang.Toolkit

/-- Every name is the word for the kind of its widget and a number that was given. -/
def Numbered (s : Setting) : Prop :=
  ∀ p ∈ s.registry, ∃ n ≤ s.gui.counter, p.1 = p.2.1.name ++ s!"_{n}"

/-- How a call ends that adds a widget of some kind, if any: with a name that no widget had, which
the new widget has from then on, or early and with the widgets that there were. -/
def Registers (kind? : Option WidgetKind) (s : Setting) : EStateM.Result Halt Setting Value → Prop
  | .ok v s' => Numbered s' ∧ kind?.elim (s'.registry = s.registry) fun kind => ∃ name object flag,
      v = .text name ∧ name ∉ s.registry.map (·.1) ∧
      s'.registry = (name, kind, object, flag) :: s.registry
  | .error _ s' => Numbered s' ∧ s'.registry = s.registry

/-! ## Calls that add nothing -/

/-- The names and the number of the last one stay. -/
abbrev Quiet {α : Type} (x : Routine α) (Q : α → Prop := fun _ => True) : Prop :=
  (Policy.keeping fun s : Setting => (s.registry, s.gui.counter)).Ensures x Q

namespace Quiet

variable {α β : Type} {x : Routine α}

theorem still (h : Still x) : Quiet x :=
  h.of_still fun _ => trivial

theorem get : Quiet (MonadState.get : Routine Setting) :=
  Policy.Ensures.get.any

theorem seq {f : α → Routine β} {Q : β → Prop} (hx : Quiet x) (hf : ∀ a, Quiet (f a) Q) :
    Quiet (x >>= f) Q :=
  hx.bind fun a _ => hf a

theorem discard (hx : Quiet x) : Quiet (discard x) :=
  Policy.Ensures.discard hx

theorem newDerived (d : Derived) : Quiet (newDerived d) :=
  .map (Q := fun _ => True) (.changeGet fun _ _ => ⟨trivial, rfl, trivial⟩) fun _ _ => trivial

theorem modifyGui {f : GuiState → GuiState} (hw : ∀ g, (f g).widgets = g.widgets)
    (hc : ∀ g, (f g).counter = g.counter) : Quiet (modifyGui f) :=
  .change fun s _ => ⟨trivial, by simp [Policy.keeping, Setting.registry, hw, hc]⟩

theorem floorDiv (v w : Value) : Quiet (floorDiv v w) := by
  simp only [Action.floorDiv]
  split
  · refine .seq (.still (.ofExcept _)) fun n => ?_
    cases n with
    | whole n => exact .pure trivial
    | real x => exact .ite (.changeGet fun _ _ => ⟨trivial, rfl, trivial⟩) (.pure trivial)
  · exact .still (.fail _)

section

variable {id : Nat} {name : String} {v : Value} {args : List Value} {named : List (String × Value)}

theorem note {target : String} : Quiet (note target name args named) := by
  refine .seq .get fun s => ?_
  split
  · exact .still (.fail _)
  · exact .modifyGui (fun _ => rfl) fun _ => rfl

theorem make {kind : ToolkitKind} : Quiet (make kind args named) :=
  .seq .get fun _ => .seq note fun _ => .seq (.modifyGui (fun _ => rfl) fun _ => rfl) fun _ =>
    .pure trivial

theorem object? : Quiet (object? id) :=
  .seq .get fun _ => .pure trivial

theorem update {f : ToolkitObject → ToolkitObject} : Quiet (update id f) :=
  .modifyGui (fun _ => rfl) fun _ => rfl

theorem perform : Quiet (perform id name args named) := by
  refine .seq object? fun o => ?_
  cases o with
  | some o => exact note
  | none => exact .pure trivial

theorem configure : Quiet (configure id name v) :=
  .seq perform fun _ => update

theorem optionOf : Quiet (optionOf id name) :=
  .seq object? fun _ => .pure trivial

theorem replaceText {start : Value} : Quiet (replaceText id start v) :=
  .seq perform fun _ => .seq update fun _ => .seq perform fun _ =>
    .seq (.still (text_still v)) fun _ => update

theorem textOf : Quiet (textOf id) :=
  .seq object? fun _ => .pure trivial

theorem dialog : Quiet (dialog name args named) := by
  refine .seq note fun _ => .seq .get fun s => ?_
  split
  · exact .pure trivial
  · exact .seq (.modifyGui (fun _ => rfl) fun _ => rfl) fun _ => .pure trivial

end

/-- Another callback makes no other widget. -/
theorem setCallback (name : String) (callback : Value) :
    Quiet (Toolkit.modifyGui fun g => { g with widgets := g.widgets.map fun entry =>
      if entry.1 == name then (name, { entry.2 with callback }) else entry }) := by
  refine .change fun s _ => ⟨trivial, Prod.ext ?_ rfl⟩
  show List.map _ (List.map _ _) = List.map _ _
  rw [List.map_map]
  refine List.map_congr_left fun entry _ => ?_
  rw [Function.comp_apply]
  split
  · next h => rw [beq_iff_eq.1 h]; rfl
  · rfl

theorem onWindow {act : Nat → Routine Unit} (h : ∀ id, Quiet (act id)) : Quiet (onWindow act) := by
  refine .seq .get fun s => ?_
  dsimp only
  split
  · exact .seq (h _) fun _ => .pure trivial
  · exact .pure trivial

section

variable {name other : Value}

theorem withWidget {act : Widget → Routine Value} (h : ∀ w, Quiet (act w)) :
    Quiet (withWidget name other act) := by
  refine .seq (.still (hashable_still name)) fun _ => ?_
  split
  · refine .seq .get fun s => ?_
    split
    · exact h _
    · exact .pure trivial
  · exact .pure trivial

theorem toWidget {act : Widget → Routine Unit} (h : ∀ w, Quiet (act w)) :
    Quiet (toWidget name act) :=
  withWidget fun w => .seq (h w) fun _ => .pure trivial

theorem withKind {kind : WidgetKind} {act : Widget → Routine Value} (h : ∀ w, Quiet (act w)) :
    Quiet (withKind kind name other act) :=
  withWidget fun w => .ite (h w) (.pure trivial)

end

theorem geometry (width height : Value) : Quiet (geometry width height) :=
  .seq (.still (text_still width)) fun _ => .seq (.still (text_still height)) fun _ => .pure trivial

theorem createWindow (title width height : Value) : Quiet (createWindow title width height) :=
  .seq make fun _ => .seq (.modifyGui (fun _ => rfl) fun _ => rfl) fun _ => .seq perform fun _ =>
    .seq (geometry width height) fun _ => .seq perform fun _ =>
    .seq (.seq .get fun _ => .pure trivial) fun _ => .seq perform fun _ => .pure trivial

theorem setText (w : Widget) (v : Value) : Quiet (setText w v) := by
  unfold Package.setText
  split
  · exact configure
  · exact configure
  · exact replaceText
  · exact replaceText
  · exact .pure trivial
  · exact .pure trivial

theorem getText (w : Widget) : Quiet (getText w) := by
  unfold Package.getText
  split
  · exact .seq optionOf fun _ => .pure trivial
  · exact .seq optionOf fun _ => .pure trivial
  · exact .seq textOf fun _ => .pure trivial
  · exact .seq textOf fun _ => .pure trivial
  · exact .pure trivial
  · exact .pure trivial

theorem onClick (name callback : Value) : Quiet (onClick name callback) := by
  refine toWidget fun w => ?_
  split
  · refine .seq (setCallback _ callback) fun _ => .ite ?_ (.pure trivial)
    exact Quiet.seq (newDerived _) fun _ => configure
  · exact .pure trivial

theorem selectedItem (w : Widget) : Quiet (selectedItem w) := by
  refine .seq object? fun o => ?_
  split
  · exact .pure trivial
  · split
    · exact .pure trivial
    · split
      · exact .pure trivial
      · exact .still (.fail _)

end Quiet

/-- A function that adds no widget leaves the names and the number of the last one alone. -/
theorem runGui_quiet {f : GuiFn} (hf : f.adds? = none) (args : List Value) :
    Quiet (runGui f args) := by
  cases f with
  | addButton | addLabel | addTextBox | addTextArea | addCheckbox | addListBox => cases hf
  | createWindow => exact .createWindow _ _ _
  | setTitle | setResizable | «show» => exact .onWindow fun _ => .perform
  | setSize => exact .onWindow fun _ => .seq (.geometry _ _) fun _ => .perform
  | close => exact .onWindow fun _ => .seq .perform fun _ => .modifyGui (fun _ => rfl) fun _ => rfl
  | setText => exact .toWidget fun w => .setText w _
  | getText => exact .withWidget .getText
  | setEnabled => exact .toWidget fun _ => .seq (.still (truthy_still _)) fun _ => .configure
  | setVisible => exact .toWidget fun _ => .seq (.still (truthy_still _)) fun _ => .perform
  | setBackgroundColor | setForegroundColor | setFont => exact .toWidget fun _ => .configure
  | onClick => exact .onClick _ _
  | showMessage | showError | showWarning => exact .seq (.discard .dialog) fun _ => .pure trivial
  | askYesNo | askOkCancel | openFileDialog | saveFileDialog => exact .dialog
  | addListItem | clearList =>
    exact .withKind fun _ => .seq .perform fun _ => .seq .update fun _ => .pure trivial
  | getSelectedItem => exact .withKind .selectedItem
  | isChecked => exact .withKind fun _ => .seq .object? fun _ => .pure trivial
  | setChecked =>
    exact .withKind fun _ => .seq .perform fun _ => .seq (.still (truthy_still _)) fun _ =>
      .seq .update fun _ => .pure trivial

/-! ## Calls that add a widget -/

variable {s s' : Setting}

theorem Numbered.of_le (hs : Numbered s) (h : s'.registry = s.registry)
    (hc : s.gui.counter ≤ s'.gui.counter) : Numbered s' := by
  intro p hp
  obtain ⟨n, hn, hname⟩ := hs p (h ▸ hp)
  exact ⟨n, Nat.le_trans hn hc, hname⟩

theorem Numbered.fresh (hs : Numbered s) (kind : WidgetKind) :
    kind.name ++ s!"_{s.gui.counter + 1}" ∉ s.registry.map (·.1) := by
  intro hmem
  obtain ⟨p, hp, hname⟩ := List.mem_map.1 hmem
  obtain ⟨n, hn, hnumber⟩ := hs p hp
  have hlists := congrArg String.toList (hnumber.symm.trans hname)
  simp only [String.toList_append] at hlists
  change _ ++ '_' :: (Nat.repr n).toList = _ ++ '_' ::
    (Nat.repr (s.gui.counter + 1)).toList at hlists
  -- no kind is written with an underscore, so that the number stands behind the first one
  have hword (k : WidgetKind) : '_' ∉ k.name.toList := by cases k <;> decide
  have hdigits : '_' ∉ (Nat.repr n).toList := by
    intro h
    rw [Nat.toList_repr] at h
    exact absurd (Nat.isDigit_of_mem_toDigits (by decide) (by decide) h) (by decide)
  have heq := ((List.append_cons_inj_of_notMem (hword _) hdigits).1 hlists).2.2
  rw [Nat.toList_repr, Nat.toList_repr] at heq
  have hnumbers := congrArg (Nat.ofDigitChars 10 · 0) heq
  simp only [Nat.ofDigitChars_ten_toDigits] at hnumbers
  omega

theorem get_ok (s : Setting) : (get : Routine Setting) s = .ok s s := rfl

theorem addWidget_registers (kind : WidgetKind) {build : Value → Routine Widget} (hs : Numbered s)
    (hbuild : ∀ window, Quiet (build window) (·.kind = kind)) :
    Registers (some kind) s (addWidget kind build s) := by
  unfold addWidget
  rw [bind_ok (get_ok s)]
  cases s.gui.window with
  | none => exact ⟨hs, rfl⟩
  | some window =>
    -- the number is used up whether or not the widget can be built
    obtain ⟨s₁, hs₁, hcounter, hregistry⟩ :
        ∃ s₁, modifyGui (fun g => { g with counter := g.counter + 1 }) s =
        .ok () s₁ ∧ s₁.gui.counter = s.gui.counter + 1 ∧ s₁.registry = s.registry :=
        ⟨_, rfl, rfl, rfl⟩
    have hnumbered := hs.of_le hregistry (by omega)
    dsimp only
    rw [bind_ok hs₁, bind_ok (get_ok s₁), hcounter]
    rcases (hbuild (.handle (.widget .window window))).cases (s := s₁) trivial with
      ⟨e, s₂, hrun, hkeeps, -⟩ | ⟨w, s₂, hrun, hkeeps, rfl⟩
    all_goals
      have hregistry₂ : s₂.registry = s₁.registry := congrArg Prod.fst hkeeps
      have hcounter₂ : s₂.gui.counter = s₁.gui.counter := congrArg Prod.snd hkeeps
      have hnumbered₂ := hnumbered.of_le hregistry₂ (Nat.le_of_eq hcounter₂.symm)
    · rw [bind_error hrun]
      exact ⟨hnumbered₂, hregistry₂.trans hregistry⟩
    · rw [bind_ok hrun]
      refine ⟨?_, _, w.object, w.flag, rfl, hs.fresh w.kind,
        congrArg _ (hregistry₂.trans hregistry)⟩
      intro p hp
      rcases List.mem_cons.1 hp with rfl | hp
      · exact ⟨_, Nat.le_of_eq (hcounter.symm.trans hcounter₂.symm), rfl⟩
      · exact hnumbered₂ p hp

theorem Quiet.registers {x : Routine Value} (h : Quiet x) (hs : Numbered s) :
    Registers none s (x s) := by
  rcases h.cases (s := s) trivial with ⟨e, s', hrun, hkeeps, -⟩ | ⟨v, s', hrun, hkeeps, -⟩
  all_goals
    have hregistry : s'.registry = s.registry := congrArg Prod.fst hkeeps
    rw [hrun]
    exact ⟨hs.of_le hregistry (Nat.le_of_eq (congrArg Prod.snd hkeeps).symm), hregistry⟩

section

variable (hs : Numbered s) (label x y width height : Value)

include hs

theorem addButton_registers : Registers (some .button) s (addButton label x y width height s) := by
  refine addWidget_registers .button hs fun _ => .seq (.floorDiv _ _) fun _ => .seq (.floorDiv _ _)
    fun _ => ?_
  exact Quiet.seq .make fun _ => .seq .perform fun _ => .pure rfl

theorem addCheckbox_registers : Registers (some .checkbox) s (addCheckbox label x y s) := by
  refine addWidget_registers .checkbox hs fun _ => .seq .make fun _ => ?_
  exact Quiet.seq .make fun _ => .seq .perform fun _ => .pure rfl

/-- A widget that is made and placed, and nothing besides. -/
theorem placed_registers (kind : WidgetKind) (tool : ToolkitKind)
    (options : List (String × Value)) : Registers (some kind) s (addWidget kind (fun window => do
      let object ← make tool [window] options
      placeAt object x y width height
      return { kind, object }) s) :=
  addWidget_registers kind hs fun _ => .seq .make fun _ => .seq .perform fun _ => .pure rfl

end

theorem runGui_registers (f : GuiFn) (args : List Value) (hs : Numbered s) :
    Registers f.adds? s (runGui f args s) := by
  cases hadds : f.adds? with
  | none => exact (runGui_quiet hadds args).registers hs
  | some kind =>
    cases f with
    | addButton => cases hadds; exact addButton_registers hs _ _ _ _ _
    | addCheckbox => cases hadds; exact addCheckbox_registers hs _ _ _
    | addLabel => cases hadds; exact placed_registers hs _ _ _ _ .label .label _
    | addTextBox => cases hadds; exact placed_registers hs _ _ _ _ .textbox .entry _
    | addTextArea => cases hadds; exact placed_registers hs _ _ _ _ .textarea .area _
    | addListBox => cases hadds; exact placed_registers hs _ _ _ _ .listbox .list _
    | _ => cases hadds

/-! ## Calls one after another -/

/-- A name that a call returned for a widget of some kind, and the setting then. -/
structure Given where
  kind : WidgetKind
  name : String
  after : Setting

/-- The names that calls returned so far, from a start without widgets. What happens between the
calls leaves the widgets and the count of them alone. -/
inductive Used : List Given → Setting → Prop
  | start {s : Setting} (h : s.gui = {}) : Used [] s
  | added {ids kind name} {s s' : Setting} (f : GuiFn) (args : List Value) (h : Used ids s)
      (hadds : f.adds? = some kind) (hrun : runGui f args s = .ok (.text name) s') :
      Used (⟨kind, name, s'⟩ :: ids) s'
  | called {ids v} {s s' : Setting} (f : GuiFn) (args : List Value) (h : Used ids s)
      (hadds : f.adds? = none) (hrun : runGui f args s = .ok v s') : Used ids s'
  | failed {ids e} {s s' : Setting} (f : GuiFn) (args : List Value) (h : Used ids s)
      (hrun : runGui f args s = .error e s') : Used ids s'
  | other {ids} {s s' : Setting} (h : Used ids s) (hwidgets : s'.registry = s.registry)
      (hcounter : s'.gui.counter = s.gui.counter) : Used ids s'

/-- A given name still stands for the widget that it was given to. -/
def Given.Stands (g : Given) (s : Setting) : Prop :=
  ∃ object flag, g.after.registry.lookup g.name = some (g.kind, object, flag) ∧
    s.registry.lookup g.name = some (g.kind, object, flag)

theorem Given.Stands.mem {g : Given} (h : g.Stands s) : g.name ∈ s.registry.map (·.1) := by
  obtain ⟨object, flag, -, h⟩ := h
  obtain ⟨l₁, l₂, h, -⟩ := List.lookup_eq_some_iff.1 h
  simp [h]

theorem Given.Stands.of_eq {g : Given} (h : g.Stands s) (hregistry : s'.registry = s.registry) :
    g.Stands s' := by
  rwa [Given.Stands, hregistry]

theorem Used.stands {ids : List Given} (h : Used ids s) :
    Numbered s ∧ (ids.map (·.name)).Nodup ∧ ∀ g ∈ ids, g.Stands s := by
  induction h with
  | @start s h =>
    have hnil : s.registry = [] := by rw [Setting.registry, h]; rfl
    exact ⟨by simp [Numbered, hnil], List.nodup_nil, fun g hg => absurd hg List.not_mem_nil⟩
  | @added ids kind name s s' f args h hadds hrun ih =>
    obtain ⟨hs, hnodup, hstands⟩ := ih
    have hends := runGui_registers f args hs
    rw [hrun, hadds] at hends
    obtain ⟨hs', _, object, flag, ⟨⟩, hnew, hregistry⟩ := hends
    have hself : s'.registry.lookup name = some (kind, object, flag) := by
      rw [hregistry, List.lookup_cons_self]
    refine ⟨hs', List.nodup_cons.2 ⟨fun hmem => ?_, hnodup⟩, List.forall_mem_cons.2
      ⟨⟨object, flag, hself, hself⟩, fun g hg => ?_⟩⟩
    · obtain ⟨g, hg, rfl⟩ := List.mem_map.1 hmem
      exact hnew (hstands g hg).mem
    · have hne : g.name ≠ name := by rintro rfl; exact hnew (hstands g hg).mem
      obtain ⟨object', flag', hthen, hnow⟩ := hstands g hg
      refine ⟨object', flag', hthen, ?_⟩
      rw [hregistry, List.lookup_cons, beq_eq_false_iff_ne.2 hne, hnow]
  | @called ids v s s' f args h hadds hrun ih =>
    have hends := runGui_registers f args ih.1
    rw [hrun, hadds] at hends
    exact ⟨hends.1, ih.2.1, fun g hg => (ih.2.2 g hg).of_eq hends.2⟩
  | @failed ids e s s' f args h hrun ih =>
    have hends := runGui_registers f args ih.1
    rw [hrun] at hends
    exact ⟨hends.1, ih.2.1, fun g hg => (ih.2.2 g hg).of_eq hends.2⟩
  | @other ids s s' h hwidgets hcounter ih =>
    exact ⟨ih.1.of_le hwidgets (Nat.le_of_eq hcounter.symm), ih.2.1, fun g hg =>
      (ih.2.2 g hg).of_eq hwidgets⟩

theorem withWidget_registered {name : String} {id : WidgetKind × Nat × Nat}
    (h : s.registry.lookup name = some id) :
    ∃ w : Widget, w.identity = id ∧
      ∀ other act, withWidget (.text name) other act s = act w s := by
  rw [Setting.lookup_registry, Option.map_eq_some_iff] at h
  obtain ⟨w, hw, hid⟩ := h
  refine ⟨w, hid, fun other act => ?_⟩
  show (withWidget (.text name) other act) s = _
  unfold withWidget
  rw [bind_ok (show hashable (.text name) s = .ok () s from rfl)]
  dsimp only
  rw [bind_ok (get_ok s), hw]

/-- No name of a widget is used again. After any calls, in any order and whether or not they fail,
the names that were returned are different from each other, and each stands for the widget that it
was returned for, of the kind that was asked for: what a call does with a name it does with that
widget. The next call adds a widget under a new name, or it leaves the names and their widgets as
they are; so it does when it fails. -/
theorem names_of_widgets_are_not_used_again {ids : List Given} (h : Used ids s) :
    (ids.map (·.name)).Nodup ∧
    (∀ g ∈ ids, ∃ w w' : Widget, g.after.gui.widgets.lookup g.name = some w ∧ w.kind = g.kind ∧
      w'.identity = w.identity ∧ ∀ other act, withWidget (.text g.name) other act s = act w' s) ∧
    ∀ (f : GuiFn) (args : List Value), Registers f.adds? s (runGui f args s) := by
  obtain ⟨hs, hnodup, hstands⟩ := h.stands
  refine ⟨hnodup, fun g hg => ?_, fun f args => runGui_registers f args hs⟩
  obtain ⟨object, flag, hthen, hnow⟩ := hstands g hg
  rw [Setting.lookup_registry, Option.map_eq_some_iff] at hthen
  obtain ⟨w, hw, hid⟩ := hthen
  obtain ⟨w', hid', hact⟩ := withWidget_registered hnow
  exact ⟨w, w', hw, congrArg Prod.fst hid, hid'.trans hid.symm, hact⟩

/-- A button that cannot be built takes a number with it, and closing the window takes no name
back. -/
theorem label_after_button : ∃ ids s, Used ids s ∧ ids.map (·.name) = ["label_3", "button_1"] ∧
    (ids.map (·.name)).Nodup := by
  let size := [Value.text "t", .int 0, .int 0, .int 80, .int 20]
  have hused : Used _ _ :=
    .added .addLabel size (.called .createWindow [] (.called .close [] (.failed .addButton []
      (.added .addButton size (.called .createWindow [] (.start (s := {}) rfl) rfl rfl) rfl rfl)
      rfl)
      rfl rfl) rfl rfl) rfl rfl
  exact ⟨_, _, hused, by decide +kernel, (names_of_widgets_are_not_used_again hused).1⟩

end Package

end ScriptLang
