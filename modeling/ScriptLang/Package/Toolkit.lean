import ScriptLang.Value.Access

/-!
# The window toolkit

Windows, widgets and dialogs as the toolkit keeps them. Every call that changes something is noted,
in order; dialogs are answered by replies that the user has prepared.
-/

namespace ScriptLang.Toolkit

open ScriptLang.Action

def modifyGui (f : GuiState → GuiState) : Routine Unit :=
  modify fun w => { w with gui := f w.gui }

/-- The name of an object: its kind and its number among all objects. -/
def objectName (kind : ToolkitKind) (id : Nat) : String :=
  kind.name ++ s!"{id + 1}"

/-- Notes a call, unless the toolkit refuses it. -/
def note (target method : String) (args : List Value) (named : List (String × Value)) :
    Routine Unit := do
  match (← get).gui.refuses { target, method, args, named } with
  | some f => fail f
  | none => modifyGui fun g => { g with log := { target, method, args, named } :: g.log }

/-- Makes an object: its number. -/
def make (kind : ToolkitKind) (args : List Value) (options : List (String × Value)) :
    Routine Nat := do
  let id := (← get).gui.objects.size
  note (objectName kind id) "new" args options
  modifyGui fun g => { g with objects := g.objects.push { kind, options } }
  return id

def object? (id : Nat) : Routine (Option ToolkitObject) := do
  return (← get).gui.objects[id]?

def update (id : Nat) (f : ToolkitObject → ToolkitObject) : Routine Unit :=
  modifyGui fun g => { g with objects := g.objects.modify id f }

/-- Calls a method that has no result. -/
def perform (id : Nat) (method : String) (args : List Value) (named : List (String × Value)) :
    Routine Unit := do
  match ← object? id with
  | some o => note (objectName o.kind id) method args named
  | none => pure ()

/-- Replaces the option of that name, or adds it. -/
def putOption (name : String) (v : Value) : List (String × Value) → List (String × Value)
  | [] => [(name, v)]
  | o :: rest => if o.1 == name then (name, v) :: rest else o :: putOption name v rest

def configure (id : Nat) (name : String) (v : Value) : Routine Unit := do
  perform id "config" [] [(name, v)]
  update id fun o => { o with options := putOption name v o.options }

/-- The option of an object as it was last set. -/
def optionOf (id : Nat) (name : String) : Routine (Option Value) := do
  return (← object? id).bind (·.options.lookup name)

/-- Replaces the whole text of an object that the user can edit; its first place has a name. -/
def replaceText (id : Nat) (start v : Value) : Routine Unit := do
  perform id "delete" [start, .text "end"] []
  update id fun o => { o with text := "" }
  perform id "insert" [start, v] []
  let s ← text v
  update id fun o => { o with text := s }

/-- The text of an object that the user can edit. -/
def textOf (id : Nat) : Routine String := do
  return (← object? id).elim "" (·.text)

/-- Shows a dialog: the user's reply, or null. -/
def dialog (kind : String) (args : List Value) (named : List (String × Value)) : Routine Value := do
  note "dialog" kind args named
  match (← get).gui.replies with
  | [] => return .null
  | v :: rest =>
      modifyGui fun g => { g with replies := rest }
      return v

end ScriptLang.Toolkit
