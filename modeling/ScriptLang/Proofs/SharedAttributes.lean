import ScriptLang.Proofs.Tables

/-!
# Attributes that element helpers share

The functions that write an element take an object with attributes. Four of them, for links, images,
inputs and forms, set attributes of their own in that object, and these stay there. Without these
four the object keeps its entries.
-/

namespace ScriptLang.Package

open ScriptLang.Action

variable {s : Setting} {l k : Loc} {es : Entries}

/-! ## Calls -/

/-- The functions that write an element. -/
inductive ElementFn where
  | tag | div | p | h1 | h2 | h3 | button | a | img | input | form | ul | ol | table

namespace ElementFn

def site : ElementFn → SiteFn
  | tag => .tag
  | div => .div
  | p => .p
  | h1 => .h1
  | h2 => .h2
  | h3 => .h3
  | button => .button
  | a => .a
  | img => .img
  | input => .input
  | form => .form
  | ul => .ul
  | ol => .ol
  | table => .table

/-- The number of arguments in front of the attributes. -/
def places : ElementFn → Nat
  | div | p | h1 | h2 | h3 | button | ul | ol => 1
  | tag | a | img | input | table => 2
  | form => 3

end ElementFn

/-- A call of such a function, without the attributes. -/
structure ElementCall where
  fn : ElementFn
  args : List Value
  length_args : args.length = fn.places

namespace ElementCall

def run (c : ElementCall) (attributes : Value) : Routine Value :=
  runSite c.fn.site (c.args ++ [attributes])

def argument (c : ElementCall) (i : Nat) : Value :=
  c.args.getD i .null

/-- The attributes that a call sets itself. -/
def own (c : ElementCall) : Entries :=
  match c.fn with
  | .a => [(.text "href", c.argument 0)]
  | .img => [(.text "src", c.argument 0), (.text "alt", c.argument 1)]
  | .input => [(.text "type", c.argument 0), (.text "name", c.argument 1)]
  | .form => [(.text "action", c.argument 0), (.text "method", c.argument 1)]
  | _ => []

/-- What a call does after its own attributes are set. -/
def write (c : ElementCall) (attributes : Value) : Routine Value :=
  match c.fn with
  | .a => Package.tag "a" (c.argument 1) attributes
  | .img => Package.tag "img" (.text "") attributes
  | .input => Package.tag "input" (.text "") attributes
  | .form => Package.tag "form" (c.argument 2) attributes
  | _ => c.run attributes

end ElementCall

/-! ## One call -/

theorem textFields_still (l : Loc) : Still (textFields (.object l)) :=
  (entries_still _).bind fun _ => .any <| .mapM fun _ _ =>
    (text_still _).bind fun _ => (text_still _).bind fun _ => .done _

/-- What only reads the texts of the attributes and of the content, the first two steps of every
element, leaves the setting as it is. -/
theorem parts_still {α : Type} {f : List (String × String) → Option String → Routine α}
    (hf : ∀ fields content, Still (f fields content)) (content : Value) (l : Loc) :
    Still (do
      let fields ← if ← truthy (.object l) then textFields (.object l) else pure []
      let content ← if ← truthy content then some <$> text content else pure none
      f fields content) := by
  have hsome : Still (some <$> text content) := (text_still content).map fun _ h => h
  have hcontent (fields : List (String × String)) : Still (do
      let content ← if ← truthy content then some <$> text content else pure none
      f fields content) :=
    (truthy_still _).bind fun _ => .ite (hsome.bind (hf fields)) ((Still.done _).bind (hf fields))
  exact (truthy_still _).bind fun _ =>
    .ite ((textFields_still l).bind hcontent) ((Still.done _).bind hcontent)

theorem tag_still (name : String) (content : Value) (l : Loc) :
    Still (tag name content (.object l)) :=
  parts_still (fun _ _ => .done _) content l

theorem texts_still (vs : List Value) : Still (vs.mapM text) :=
  .any (.mapM fun v _ => text_still v)

theorem listTag_still (name : String) (items : Value) (l : Loc) :
    Still (listTag name items (.object l)) :=
  (iterate_still _).bind fun _ => (texts_still _).bind fun _ => tag_still _ _ _

theorem rows_still (rows : List Value) :
    Still (rows.mapM fun row => do (← iterate row).mapM text) :=
  .any (.mapM fun _ _ => (iterate_still _).bind fun _ => texts_still _)

theorem tableTag_still (headers rows : Value) (l : Loc) :
    Still (tableTag headers rows (.object l)) :=
  (iterate_still _).bind fun _ => (texts_still _).bind fun _ => (iterate_still _).bind fun _ =>
    (rows_still _).bind fun _ => tag_still _ _ _

theorem ElementCall.write_still (c : ElementCall) (l : Loc) : Still (c.write (.object l)) := by
  obtain ⟨f, args, h⟩ := c
  cases f with
  | a | img | input | form => exact tag_still _ _ _
  | tag =>
    obtain ⟨x, y, rfl⟩ := List.length_eq_two.1 h
    exact parts_still (fun _ _ => (text_still _).bind fun _ => .done _) _ _
  | table =>
    obtain ⟨x, y, rfl⟩ := List.length_eq_two.1 h
    exact tableTag_still _ _ _
  | div | p | h1 | h2 | h3 | button =>
    obtain ⟨x, rfl⟩ := List.length_eq_one_iff.1 h
    exact tag_still _ _ _
  | ul | ol =>
    obtain ⟨x, rfl⟩ := List.length_eq_one_iff.1 h
    exact listTag_still _ _ _

theorem tagWith_eq {name : String} {attributes : List (String × Value)} {content : Value}
    (hl : s.heap.cells[l]? = some (.object es)) :
    tagWith name attributes content (.object l) s =
      tag name content (.object l)
        (s.setCell l (.object (es.merge (attributes.map fun a => (.text a.1, a.2))))) := by
  have hkeys : ∀ e ∈ attributes.map fun a => (Value.text a.1, a.2), e.1.unhashable? = none := by
    intro e he
    obtain ⟨a, -, rfl⟩ := List.mem_map.1 he
    rfl
  have hset := setItems_object hkeys hl
  rw [List.forM_eq_forM, List.forM_map] at hset
  exact (bind_ok rfl).trans (bind_ok hset)

/-- A call sets its own attributes in the object it is given and then only reads. -/
theorem ElementCall.run_eq (c : ElementCall) (hl : s.heap.cells[l]? = some (.object es)) :
    c.run (.object l) s = c.write (.object l) (s.setCell l (.object (es.merge c.own))) := by
  obtain ⟨f, args, h⟩ := c
  cases f with
  | a | img | input =>
    obtain ⟨x, y, rfl⟩ := List.length_eq_two.1 h
    exact tagWith_eq hl
  | form =>
    obtain ⟨x, y, z, rfl⟩ := List.length_eq_three.1 h
    exact tagWith_eq hl
  | tag | div | p | h1 | h2 | h3 | button | ul | ol | table =>
    exact congrArg _ (Setting.setCell_same hl).symm

/-- What an element shows of an object is its entries. -/
theorem parts_congr {α : Type} {f : List (String × String) → Routine α}
    (h : s.heap.entries k = s.heap.entries l) :
    (do f (← if ← truthy (.object k) then textFields (.object k) else pure []) : Routine α) s =
      (do f (← if ← truthy (.object l) then textFields (.object l) else pure []) : Routine α)
        s := by
  have htruthy : truthy (.object k) s = .ok (s.heap.truthy (.object l)) s :=
    congrArg (EStateM.Result.ok · s) (by rw [Heap.truthy, Heap.truthy, h])
  have hentries : entries k s = .ok (s.heap.entries l) s := congrArg (EStateM.Result.ok · s) h
  have hfields : textFields (.object k) s = textFields (.object l) s :=
    (bind_ok hentries).trans (bind_ok rfl).symm
  have hbind : (textFields (.object k) >>= f) s = (textFields (.object l) >>= f) s := by
    show EStateM.bind _ _ _ = EStateM.bind _ _ _
    rw [EStateM.bind, EStateM.bind, hfields]
  have hsame : truthy (.object l) s = .ok (s.heap.truthy (.object l)) s := rfl
  rw [bind_ok htruthy, bind_ok hsame]
  split
  · exact hbind
  · rfl

theorem listTag_congr {name : String} {items : Value} (h : s.heap.entries k = s.heap.entries l) :
    listTag name items (.object k) s = listTag name items (.object l) s :=
  Still.bind_congr (iterate_still _) fun _ => Still.bind_congr (texts_still _) fun _ =>
    parts_congr h

theorem ElementCall.run_congr {c : ElementCall} (hc : c.own = [])
    (h : s.heap.entries k = s.heap.entries l) : c.run (.object k) s = c.run (.object l) s := by
  obtain ⟨f, args, hargs⟩ := c
  cases f with
  | a | img | input | form => cases hc
  | tag =>
    obtain ⟨x, y, rfl⟩ := List.length_eq_two.1 hargs
    exact parts_congr h
  | table =>
    obtain ⟨x, y, rfl⟩ := List.length_eq_two.1 hargs
    exact Still.bind_congr (iterate_still _) fun _ => Still.bind_congr (texts_still _) fun _ =>
      Still.bind_congr (iterate_still _) fun _ => Still.bind_congr (rows_still _) fun _ =>
        parts_congr h
  | div | p | h1 | h2 | h3 | button =>
    obtain ⟨x, rfl⟩ := List.length_eq_one_iff.1 hargs
    exact parts_congr h
  | ul | ol =>
    obtain ⟨x, rfl⟩ := List.length_eq_one_iff.1 hargs
    exact listTag_congr h

/-! ## Sequences of calls -/

namespace ElementCall

/-- The setting that a call ends in, with a result or not. -/
def after (l : Loc) (s : Setting) (c : ElementCall) : Setting :=
  match c.run (.object l) s with
  | .ok _ s' | .error _ s' => s'

theorem after_eq (c : ElementCall) (hl : s.heap.cells[l]? = some (.object es)) :
    c.after l s = s.setCell l (.object (es.merge c.own)) := by
  rw [after, c.run_eq hl]
  obtain ⟨e, s', hrun, rfl, -⟩ | ⟨v, s', hrun, rfl, -⟩ := (c.write_still l).cases trivial
  · rw [hrun]
  · rw [hrun]

theorem foldl_after (calls : List ElementCall) (hl : s.heap.cells[l]? = some (.object es)) :
    calls.foldl (after l) s = s.setCell l (.object (es.merge (calls.flatMap own))) := by
  induction calls generalizing s es with
  | nil => exact (Setting.setCell_same hl).symm
  | cons c calls ih =>
    rw [List.foldl_cons, c.after_eq hl, ih (Setting.setCell_self hl), Setting.setCell_setCell,
      List.flatMap_cons, Entries.merge, Entries.merge, Entries.merge, List.foldl_append]

end ElementCall

/-- Calls with one object for attributes leave their own attributes in it and change nothing else,
and each call writes the original attributes merged with its own and those of all calls before it.
Calls without attributes of their own leave the object as it is, and return what they return for any
object with its entries. -/
theorem elements_gather_attributes (calls : List ElementCall)
    (hl : s.heap.cells[l]? = some (.object es)) :
    calls.foldl (ElementCall.after l) s =
        s.setCell l (.object (es.merge (calls.flatMap ElementCall.own))) ∧
      (∀ c : ElementCall, c.run (.object l) (calls.foldl (ElementCall.after l) s) =
        c.write (.object l)
          (s.setCell l (.object (es.merge ((calls ++ [c]).flatMap ElementCall.own)))) ∧
          Still (c.write (.object l))) ∧
      ((∀ c ∈ calls, c.own = []) → calls.foldl (ElementCall.after l) s = s ∧
        ∀ c : ElementCall, c.own = [] → ∀ k, s.heap.cells[k]? = some (.object es) →
          c.run (.object l) (calls.foldl (ElementCall.after l) s) = c.run (.object k) s) := by
  have hcalls := ElementCall.foldl_after calls hl
  refine ⟨hcalls, fun c => ⟨?_, c.write_still l⟩, fun hown => ?_⟩
  · rw [← ElementCall.foldl_after (calls ++ [c]) hl, List.foldl_append, hcalls,
      c.run_eq (Setting.setCell_self hl), ← c.after_eq (Setting.setCell_self hl)]
    rfl
  · have hsame : calls.foldl (ElementCall.after l) s = s := by
      rw [hcalls, List.flatMap_eq_nil_iff.2 hown]
      exact Setting.setCell_same hl
    refine ⟨hsame, fun c hc k hk => ?_⟩
    rw [hsame]
    exact c.run_congr hc (by rw [Heap.entries, hl, Heap.entries, hk])

/-- One object with a class attribute. -/
def classAttribute : Setting where
  heap := { cells := #[.object [(.text "class", .text "c")]] }

/-- A link and a block with text. -/
def linkAndBlock : List ElementCall :=
  [⟨.a, [.text "/u", .text "x"], rfl⟩, ⟨.div, [.text "y"], rfl⟩]

theorem linkAndBlock_gathered :
    linkAndBlock.foldl (ElementCall.after 0) classAttribute = classAttribute.setCell 0
      (.object [(.text "class", .text "c"), (.text "href", .text "/u")]) :=
  (@elements_gather_attributes classAttribute 0 [(.text "class", .text "c")] linkAndBlock rfl).1

/-- The block written after the link shows the address of the link, which it does not without it. -/
theorem link_leaks_address :
    ElementCall.run ⟨.div, [.text "y"], rfl⟩ (.object 0)
        (ElementCall.after 0 classAttribute ⟨.a, [.text "/u", .text "x"], rfl⟩) =
      .ok (.text "<div class=\"c\" href=\"/u\">y</div>") (classAttribute.setCell 0
        (.object [(.text "class", .text "c"), (.text "href", .text "/u")])) ∧
    ElementCall.run ⟨.div, [.text "y"], rfl⟩ (.object 0) classAttribute =
      .ok (.text "<div class=\"c\">y</div>") classAttribute :=
  ⟨rfl, rfl⟩

end ScriptLang.Package
