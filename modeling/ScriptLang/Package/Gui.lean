import ScriptLang.Call
import ScriptLang.Files.Access
import ScriptLang.Package.Toolkit

/-!
# Windows and widgets

One window at a time, widgets with names that are never given twice, and dialogs. What users do to
widgets is here too.
-/

namespace ScriptLang.Package

open ScriptLang.Action ScriptLang.Toolkit

/-- The size of a window as the toolkit takes it. -/
def geometry (width height : Value) : Routine Value := do
  return .text ((← text width) ++ "x" ++ (← text height))

/-- The icon of windows: one in the working directory, or else the one that is installed. -/
def iconFile : Routine String := do
  let w ← get
  let own := ["zenlang.ico", "zenlang/zenlang.ico"].find? (w.files.present w.cwd ·)
  return own.getD (w.installDir ++ "/runtime/../../zenlang.ico")

/-- Opens a window, which becomes the current one. -/
def createWindow (title width height : Value) : Routine Value := do
  let id ← make .window [] []
  modifyGui fun g => { g with window := some id }
  perform id "title" [title] []
  perform id "geometry" [← geometry width height] []
  perform id "iconbitmap" [.text (← iconFile)] []
  return .text "window_main"

/-- Does something to the current window, if there is one. -/
def onWindow (act : Nat → Routine Unit) : Routine Value := do
  match (← get).gui.window with
  | some id => act id
  | none => pure ()
  return .null

/-- Adds a widget to the current window and gives it the next name. The number of the name is used
up even when the widget cannot be built. -/
def addWidget (kind : WidgetKind) (build : Value → Routine Widget) : Routine Value := do
  match (← get).gui.window with
  | none => runtimeFault "No window created. Call createWindow first."
  | some window =>
      modifyGui fun g => { g with counter := g.counter + 1 }
      let name := kind.name ++ s!"_{(← get).gui.counter}"
      let widget ← build (.handle (.widget .window window))
      modifyGui fun g => { g with widgets := (name, widget) :: g.widgets }
      return .text name

def placeAt (id : Nat) (x y width height : Value) : Routine Unit :=
  perform id "place" [] [("x", x), ("y", y), ("width", width), ("height", height)]

/-- Adds a button; its size in characters is rounded down. -/
def addButton (label x y width height : Value) : Routine Value :=
  addWidget .button fun window => do
    let columns ← floorDiv width (.int 8)
    let rows ← floorDiv height (.int 20)
    let object ← make .button [window] [("text", label), ("width", columns), ("height", rows)]
    placeAt object x y width height
    return { kind := .button, object }

def addLabel (label x y width height : Value) : Routine Value :=
  addWidget .label fun window => do
    let object ← make .label [window] [("text", label)]
    placeAt object x y width height
    return { kind := .label, object }

def addTextBox (x y width height : Value) : Routine Value :=
  addWidget .textbox fun window => do
    let object ← make .entry [window] []
    placeAt object x y width height
    return { kind := .textbox, object }

def addTextArea (x y width height : Value) : Routine Value :=
  addWidget .textarea fun window => do
    let object ← make .area [window] [("wrap", .text "word")]
    placeAt object x y width height
    return { kind := .textarea, object }

/-- Adds a check box with a flag of its own. -/
def addCheckbox (label x y : Value) : Routine Value :=
  addWidget .checkbox fun window => do
    let flag ← make .flag [] []
    let object ← make .check [window]
      [("text", label), ("variable", .handle (.widget .flag flag))]
    perform object "place" [] [("x", x), ("y", y)]
    return { kind := .checkbox, object, flag }

def addListBox (x y width height : Value) : Routine Value :=
  addWidget .listbox fun window => do
    let object ← make .list [window] []
    placeAt object x y width height
    return { kind := .listbox, object }

/-- Does something with a widget; the other value stands for one that does not exist. -/
def withWidget (name other : Value) (act : Widget → Routine Value) : Routine Value := do
  hashable name
  match name with
  | .text s =>
      match (← get).gui.widgets.lookup s with
      | some widget => act widget
      | none => return other
  | _ => return other

/-- Does something to a widget that exists, and says whether it does. -/
def toWidget (name : Value) (act : Widget → Routine Unit) : Routine Value :=
  withWidget name (.bool false) fun widget => do
    act widget
    return .bool true

def withKind (kind : WidgetKind) (name other : Value) (act : Widget → Routine Value) :
    Routine Value :=
  withWidget name other fun widget =>
    if widget.kind = kind then act widget else return other

def setText (widget : Widget) (v : Value) : Routine Unit :=
  match widget.kind with
  | .label | .button => configure widget.object "text" v
  | .textbox => replaceText widget.object (.int 0) v
  | .textarea => replaceText widget.object (.text "1.0") v
  | .checkbox | .listbox => pure ()

/-- The text of a widget, that of an area without the blanks around it. -/
def getText (widget : Widget) : Routine Value := do
  match widget.kind with
  | .label | .button => return (← optionOf widget.object "text").getD (.text "")
  | .textbox => return .text (← textOf widget.object)
  | .textarea => return .text (Text.trim ((← textOf widget.object) ++ "\n"))
  | .checkbox | .listbox => return .text ""

/-- Remembers what a click calls; only buttons can be clicked. -/
def onClick (name callback : Value) : Routine Value :=
  toWidget name fun widget => do
    match name with
    | .text s =>
        modifyGui fun g => { g with widgets := g.widgets.map fun entry =>
          if entry.1 == s then (s, { entry.2 with callback }) else entry }
        if widget.kind = .button then
          configure widget.object "command" (← newDerived (.clickHandler s))
    | _ => pure ()

def selectedItem (widget : Widget) : Routine Value := do
  match ← object? widget.object with
  | none => return .null
  | some o =>
      match o.selected with
      | none => return .null
      | some i =>
          match o.items[i]? with
          | some v => return v
          | none => fail (.other .index "list index out of range")

def runGui (f : GuiFn) (args : List Value) : Routine Value :=
  let a (i : Nat) : Value := args.getD i .null
  match f with
  | .createWindow => createWindow (a 0) (a 1) (a 2)
  | .setTitle => onWindow fun id => perform id "title" [a 1] []
  | .setSize => onWindow fun id => do perform id "geometry" [← geometry (a 1) (a 2)] []
  | .setResizable => onWindow fun id => perform id "resizable" [a 1, a 1] []
  | .addButton => addButton (a 0) (a 1) (a 2) (a 3) (a 4)
  | .addLabel => addLabel (a 0) (a 1) (a 2) (a 3) (a 4)
  | .addTextBox => addTextBox (a 0) (a 1) (a 2) (a 3)
  | .addTextArea => addTextArea (a 0) (a 1) (a 2) (a 3)
  | .addCheckbox => addCheckbox (a 0) (a 1) (a 2)
  | .addListBox => addListBox (a 0) (a 1) (a 2) (a 3)
  | .setText => toWidget (a 0) fun widget => setText widget (a 1)
  | .getText => withWidget (a 0) (.text "") getText
  | .setEnabled => toWidget (a 0) fun widget => do
      configure widget.object "state" (.text (if ← truthy (a 1) then "normal" else "disabled"))
  | .setVisible => toWidget (a 0) fun widget => do
      perform widget.object (if ← truthy (a 1) then "place" else "place_forget") [] []
  | .onClick => onClick (a 0) (a 1)
  | .showMessage => do discard <| dialog "showinfo" [a 0, a 1] []; return .null
  | .showError => do discard <| dialog "showerror" [a 0, a 1] []; return .null
  | .showWarning => do discard <| dialog "showwarning" [a 0, a 1] []; return .null
  | .askYesNo => dialog "askyesno" [a 0, a 1] []
  | .askOkCancel => dialog "askokcancel" [a 0, a 1] []
  | .openFileDialog => dialog "askopenfilename" [] [("title", a 0)]
  | .saveFileDialog => dialog "asksaveasfilename" [] [("title", a 0)]
  | .addListItem => withKind .listbox (a 0) (.bool false) fun widget => do
      perform widget.object "insert" [.text "end", a 1] []
      update widget.object fun o => { o with items := o.items.push (a 1) }
      return .bool true
  | .clearList => withKind .listbox (a 0) (.bool false) fun widget => do
      perform widget.object "delete" [.int 0, .text "end"] []
      update widget.object fun o => { o with items := #[], selected := none }
      return .bool true
  | .getSelectedItem => withKind .listbox (a 0) .null selectedItem
  | .isChecked => withKind .checkbox (a 0) (.bool false) fun widget => do
      return .bool ((← object? widget.flag).elim false (·.flag))
  | .setChecked => withKind .checkbox (a 0) (.bool false) fun widget => do
      perform widget.flag "set" [a 1] []
      let flag ← truthy (a 1)
      update widget.flag fun o => { o with flag }
      return .bool true
  | .show => onWindow fun id => perform id "mainloop" [] []
  | .close => onWindow fun id => do
      perform id "destroy" [] []
      modifyGui fun g => { g with window := none }
  | .setBackgroundColor => toWidget (a 0) fun widget => configure widget.object "bg" (a 1)
  | .setForegroundColor => toWidget (a 0) fun widget => configure widget.object "fg" (a 1)
  | .setFont => toWidget (a 0) fun widget => configure widget.object "font" (.tuple [a 1, a 2])

def userWidget (name : String) : Routine Widget := do
  match (← get).gui.widgets.lookup name with
  | some widget => return widget
  | none => fail (.other .key (Text.quoted name))

def click (call : Caller) (name : String) : Action Unit := do
  let widget ← userWidget name
  match ← optionOf widget.object "command" with
  | some f => discard <| call f []
  | none => fail (.other .key "'command'")

def typeText (name content : String) : Routine Unit := do
  let widget ← userWidget name
  update widget.object fun o => { o with text := content }

def selectItem (name : String) (place : Nat) : Routine Unit := do
  let widget ← userWidget name
  update widget.object fun o => { o with selected := some place }

/-- The user prepares the reply to a coming dialog. -/
def prepareReply (v : Value) : Routine Unit :=
  modifyGui fun g => { g with replies := g.replies ++ [v] }

end ScriptLang.Package
