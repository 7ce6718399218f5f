import ScriptLang.Proofs.FileContents

/-!
# Databases in files

Saving a database writes its tables to its file, and loading takes them from there; backups go to
any file. Saving opens the file before it writes, so where the tables have no document the file has
been emptied by then.
-/

namespace ScriptLang

open ScriptLang.Action ScriptLang.Json

variable {d : Database} {tables : Json} {fs : List (String × Json)} {id : Nat} {s : Setting}

/-! ## Fields of documents that are held -/

/-- What is found at a name in an object is the value of the field of that name. -/
theorem field?_of_holds {h : Heap} {es : Entries}
    (hes : List.Forall₂ h.HoldsField fs es) (name : String) :
    (fs.lookup name = none ∧ es.field? name = none) ∨
      ∃ j v, fs.lookup name = some j ∧ es.field? name = some v ∧ h.Holds j v := by
  induction hes with
  | nil => exact .inl ⟨rfl, rfl⟩
  | @cons f e fs es hfe _ ih =>
    rw [lookup_cons_eq_ite, Entries.field?, Entries.get?]
    by_cases hname : name = f.1
    · have hsame : e.1.sameKey (.text name) = true := Value.sameKey_text.2 (by rw [hfe.key, hname])
      rw [if_pos hname, if_pos hsame]
      exact .inr ⟨f.2, e.2, rfl, rfl, hfe.value⟩
    · have hdiff : ¬ e.1.sameKey (.text name) = true := by
        rw [Value.sameKey_text, hfe.key]
        exact fun heq => hname (Value.text.inj heq).symm
      rw [if_neg hname, if_neg hdiff]
      exact ih

theorem field_of_holds {h : Heap} {l : Loc} {name : String} {j : Json}
    (hl : h.Holds (.fields fs) (.object l)) (hname : fs.lookup name = some j) :
    ∃ v, (h.entries l).field? name = some v ∧ h.Holds j v := by
  obtain ⟨_, es, ⟨⟩, hcell, -, hes⟩ := hl.fields_inv
  rcases field?_of_holds hes name with ⟨hnone, -⟩ | ⟨j', v, hj', hv, hheld⟩
  · rw [hname] at hnone
    cases hnone
  · cases hname.symm.trans hj'
    exact ⟨v, by rw [Heap.entries_eq hcell, hv], hheld⟩

namespace Package

/-- The number that the next record of a table gets, if its tables have one. -/
def nextId? (h : Heap) (tables : Value) (name : String) : Option Int :=
  match tables with
  | .object l =>
      match (h.entries l).field? name with
      | some (.object t) =>
          match (h.entries t).field? "auto_increment" with
          | some (.int n) => some n
          | _ => none
      | _ => none
  | _ => none

/-- The number of the next record in a document of tables. -/
def nextNumber? (tables : Json) (name : String) : Option Int :=
  match tables with
  | .fields fs =>
      match fs.lookup name with
      | some (.fields table) =>
          match table.lookup "auto_increment" with
          | some (.whole n) => some n
          | _ => none
      | _ => none
  | _ => none

theorem nextId?_eq {h : Heap} {v : Value} (hv : h.Holds tables v) (name : String) :
    nextId? h v name = nextNumber? tables name := by
  cases hv with
  | @fields l fs es cell distinct keys values =>
    rw [nextId?, nextNumber?, Heap.entries_eq cell]
    rcases field?_of_holds (Heap.forall₂_holdsField.2 ⟨keys, values⟩) name with
      ⟨hnone, hempty⟩ | ⟨j, v, hj, hv, hheld⟩
    · rw [hnone, hempty]
    · rw [hj, hv]
      cases hheld with
      | @fields t gs ts cell distinct keys values =>
        dsimp only
        rw [Heap.entries_eq cell]
        rcases field?_of_holds (Heap.forall₂_holdsField.2 ⟨keys, values⟩) "auto_increment" with
          ⟨hnone, hempty⟩ | ⟨k, w, hk, hw, hnumber⟩
        · rw [hnone, hempty]
        · rw [hk, hw]
          cases hnumber <;> rfl
      | _ => rfl
  | _ => rfl

end Package

/-! ## Writing fields to a file -/

/-- A setting with one more cell. -/
def Setting.withCell (s : Setting) (c : Cell) : Setting :=
  { s with heap := { s.heap with cells := s.heap.cells.push c } }

/-- A value with a name is written as a field: it has the name of the field and holds its document,
which is not nested too deep below an object. -/
structure Heap.Writes (h : Heap) (f : String × Json) (g : String × Value) : Prop where
  name : g.1 = f.1
  holds : h.Holds f.2 g.2
  fits : Json.Fits (valueDepth - 1) f.2

theorem holds_withCell {vs : List (String × Value)}
    (hdistinct : (fs.map (·.1)).Nodup) (hvalues : List.Forall₂ s.heap.Writes fs vs) :
    (s.withCell (.object (vs.map fun f => (.text f.1, f.2)))).heap.Holds (.fields fs)
      (.object s.heap.cells.size) := by
  have hcell :
      (s.withCell (.object (vs.map fun f => (.text f.1, f.2)))).heap.cells[s.heap.cells.size]? =
      some (.object (vs.map fun f => (.text f.1, f.2))) := by
    simp [Setting.withCell]
  refine .of_fields hcell hdistinct (List.forall₂_map_right_iff.2 (hvalues.imp fun f g hfg => ?_))
  exact ⟨congrArg Value.text hfg.name, hfg.holds.mono (Setting.Grows.push s _).cells⟩

namespace Package

theorem databaseAt_ok (hd : s.databases.databases[id]? = some d) : databaseAt id s = .ok d s := by
  show EStateM.Result.ok (s.databases.databases.getD id _) s = _
  rw [Array.getD_eq_getD_getElem?, hd]
  rfl

theorem saveTables_eq (hd : s.databases.databases[id]? = some d) :
    saveTables id s = writeFields (.text d.file) (savedFields d) s :=
  bind_ok (databaseAt_ok hd)

theorem backup_eq (hd : s.databases.databases[id]? = some d) (path : Value) :
    backup id path s = writeFields path (savedFields d ++ [("backup_time", .float s.clock)]) s :=
  bind_ok (databaseAt_ok hd)

section

variable {path : Value} {p : Path} {fields : List (String × Value)}

/-- The setting in which fields are written: they are gathered in a new object. -/
def gathered (s : Setting) (fields : List (String × Value)) : Setting :=
  s.withCell (.object (fields.map fun f => (.text f.1, f.2)))

theorem writeFields_eq : writeFields path fields s =
    (writeJson path (.object s.heap.cells.size) >>= fun _ => pure (.bool true))
      (gathered s fields) :=
  rfl

theorem writeFields_ok (hopen : s.Opens path p) {j : Json}
    (hdoc : (gathered s fields).heap.documentOf valueDepth [] (.object s.heap.cells.size) = .ok j) :
    writeFields path fields s =
      .ok (.bool true) ((gathered s fields).withFile p (Json.render (.indented 2) j)) := by
  have hopen' : (gathered s fields).Opens path p := hopen
  exact bind_ok (writeJson_ok hopen' hdoc)

/-- The three ways to write fields: they have a document, which the file has in the end; no file can
be written at the path, and nothing is; or they have no document, and the file is left with a text
that has none either. -/
theorem writeFields_cases (s : Setting) (path : Value) (fields : List (String × Value)) :
    (∃ p j, s.Opens path p ∧
      (gathered s fields).heap.documentOf valueDepth [] (.object s.heap.cells.size) = .ok j ∧
      writeFields path fields s =
        .ok (.bool true) ((gathered s fields).withFile p (Json.render (.indented 2) j))) ∨
    ((∀ p, ¬ s.Opens path p) ∧ ∃ f, writeFields path fields s = .error (.fault f)
      (gathered s fields)) ∨
    ∃ p text e f, s.Opens path p ∧
      writeFields path fields s = .error (.fault f) ((gathered s fields).withFile p text) ∧
      '\r' ∉ text.toList ∧ Json.read text = .error e := by
  by_cases hopen : ∃ p, s.Opens path p
  · obtain ⟨p, hopen⟩ := hopen
    cases hdoc : (gathered s fields).heap.documentOf valueDepth [] (.object s.heap.cells.size) with
    | ok j => exact .inl ⟨p, j, hopen, rfl, writeFields_ok hopen hdoc⟩
    | error e =>
      have hopen' : (gathered s fields).Opens path p := hopen
      obtain ⟨e', hread⟩ := (gathered s fields).heap.read_writtenPart (.indented 2) (by decide) hdoc
      refine .inr (.inr ⟨p, _, e', e, hopen, ?_, Heap.not_return_writtenPart _ _ _ _ _ _, hread⟩)
      rw [writeFields_eq, bind_error (writeJson_error hopen' hdoc)]
  · have hclosed : ∀ p, ¬ (gathered s fields).Opens path p := fun p hp => hopen ⟨p, hp⟩
    obtain ⟨f, hf⟩ := writeThrough_error hclosed
      (jsonPart (.indented 2) (.object s.heap.cells.size))
    have hfail : writeJson path (.object s.heap.cells.size) (gathered s fields) =
        .error (.fault f) (gathered s fields) := hf
    refine .inr (.inl ⟨fun p hp => hopen ⟨p, hp⟩, f, ?_⟩)
    rw [writeFields_eq, bind_error hfail]

end

/-! ## Taking tables from a file -/

/-- The change from one setting to another in which a database gets tables that hold a document,
made of new cells. -/
structure Loads (s s' : Setting) (id : Nat) (tables : Json) (t : Value) : Prop where
  databases : s'.databases = { s.databases with
    databases := s.databases.databases.modify id fun d => { d with tables := t } }
  holds : s'.heap.Holds tables t
  cells : ∀ (l : Loc) (c : Cell), s.heap.cells[l]? = some c → s'.heap.cells[l]? = some c
  files : s'.files = s.files

section

variable {path : Value} {text : String} (hshows : s.Shows path text)
  (hclean : '\r' ∉ text.toList)

include hshows hclean

theorem takeTables_ok (id : Nat) {j : Json} (hread : Json.read text = .ok j)
    (hfields : j.merged = .fields fs) (htables : fs.lookup "tables" = some tables) :
    ∃ t s', takeTables id path s = .ok () s' ∧ Loads s s' id tables t := by
  obtain ⟨v, s₁, hv, hgrows, hheld⟩ := readJsonFile_ok hshows hclean hread
  rw [hfields] at hheld
  obtain ⟨l, es, rfl, -, -, -⟩ := hheld.fields_inv
  obtain ⟨t, ht, hholds⟩ := field_of_holds hheld htables
  have htake : tablesOf (.object l) s₁ = .ok t s₁ := by
    refine (bind_ok (rfl : entries l s₁ = .ok (s₁.heap.entries l) s₁)).trans ?_
    rw [ht]
    rfl
  refine ⟨t, _, (bind_ok hv).trans ((bind_ok htake).trans rfl), ?_⟩
  have hrest := hgrows.rest
  exact {
    databases := by
      rw [hrest]
    holds := hholds
    cells := hgrows.cells
    files := by
      rw [hrest] }

theorem takeTables_error (id : Nat) {e : JsonError} (hread : Json.read text = .error e) :
    ∃ f, takeTables id path s = .error (.fault f) s := by
  obtain ⟨f, hf⟩ := readJsonFile_error hshows hclean hread
  exact ⟨f, bind_error hf⟩

end

variable {path : Value}

theorem names_text {file name : String} (h : openPath (.text file) s = .ok name s) :
    name = file := by
  rw [openPath] at h
  split at h
  · cases h
  · cases h
    rfl

/-- A file that can be read is there, so that its tables are taken. -/
theorem loadTables_eq {text : String} (hd : s.databases.databases[id]? = some d)
    (hshows : s.Shows (.text d.file) text) :
    loadTables id s = (takeTables id (.text d.file) >>= fun _ => pure true) s := by
  obtain ⟨name, hname, hread⟩ := hshows
  have hfile : name = d.file := names_text (hname s)
  have hpresent : pathPresent (.text d.file) s = .ok true s := by
    show EStateM.Result.ok (s.files.present s.cwd d.file) s = _
    rw [FileSystem.present_of_read (hfile ▸ hread)]
  exact (bind_ok (databaseAt_ok hd)).trans (bind_ok hpresent)

/-! ## What is saved can be loaded -/

/-- The change from one setting to another in which databases and cells stay as they are. -/
structure KeepsMemory (s s' : Setting) : Prop where
  databases : s'.databases = s.databases
  cells : ∀ (l : Loc) (c : Cell), s.heap.cells[l]? = some c → s'.heap.cells[l]? = some c

theorem gathered_keepsMemory (s : Setting) (fields : List (String × Value)) :
    KeepsMemory s (gathered s fields) :=
  ⟨rfl, (Setting.Grows.push s _).cells⟩

/-- The name and the tables of a database hold documents that can be written: their whole numbers
have texts, and below the object that they are written in they are not nested too deep. -/
structure Storable (h : Heap) (d : Database) (tables : Json) : Prop where
  name : ∃ j, h.Holds j d.name ∧ Json.Fits (valueDepth - 1) j
  holds : h.Holds tables d.tables
  fits : Json.Fits (valueDepth - 1) tables

/-- Fields that hold documents are written, and what holds them afterwards is what was written. -/
theorem written_and_taken {p : Path} (hopen : s.Opens path p) {fields : List (String × Value)}
    (hdistinct : (fs.map (·.1)).Nodup) (hvalues : List.Forall₂ s.heap.Writes fs fields)
    (htables : fs.lookup "tables" = some tables) :
    ∃ s₁, writeFields path fields s = .ok (.bool true) s₁ ∧ KeepsMemory s s₁ ∧
      ∀ (s₂ : Setting) (id : Nat), (∀ text, s₁.Shows path text → s₂.Shows path text) →
        (∃ text, s₂.Shows path text) ∧
          ∃ t s₃, takeTables id path s₂ = .ok () s₃ ∧ Loads s₂ s₃ id tables t := by
  have hheld := holds_withCell hdistinct hvalues
  have hfits : ∀ f ∈ fs, Json.Fits (valueDepth - 1) f.2 := by
    intro f hf
    obtain ⟨g, -, hfg⟩ := exists_of_forall₂_right hvalues.flip hf
    exact hfg.fits
  have hdoc : (gathered s fields).heap.documentOf valueDepth [] (.object s.heap.cells.size) =
      .ok (.fields fs) :=
    Heap.documentOf_eq hheld (Json.Fits.fields hfits) nofun
  have hread := (gathered s fields).heap.read_documentOf (.indented 2) (by decide) hdoc
  have hclean := (gathered s fields).heap.not_return_documentOf (.indented 2) hdoc
  refine ⟨_, writeFields_ok hopen hdoc, ⟨rfl, (Setting.Grows.push s _).cells⟩,
    fun s₂ id hsame => ?_⟩
  have hopen' : (gathered s fields).Opens path p := hopen
  have hshows := hsame _ (hopen'.shows _)
  exact ⟨⟨_, hshows⟩, takeTables_ok hshows hclean id hread hheld.merged_eq htables⟩

/-- Loading undoes saving. Where the tables hold a document that can be written, and the file can be
opened, saving succeeds and changes nothing in memory; and as long as the file has what was saved,
every database of that file loads tables that hold the same document, so that their next records get
the same numbers. The same goes for backups. -/
theorem load_undoes_save {s : Setting} {id : Nat} {d : Database} {tables : Json}
    (hd : s.databases.databases[id]? = some d) (hstorable : Storable s.heap d tables) :
    (∀ p, s.Opens (.text d.file) p → ∃ s₁, saveTables id s = .ok (.bool true) s₁ ∧
      KeepsMemory s s₁ ∧
      ∀ (s₂ : Setting) (id₂ : Nat) (d₂ : Database), s₂.databases.databases[id₂]? = some d₂ →
        d₂.file = d.file →
        (∀ text, s₁.Shows (.text d.file) text → s₂.Shows (.text d.file) text) →
        ∃ t s₃, loadTables id₂ s₂ = .ok true s₃ ∧ Loads s₂ s₃ id₂ tables t ∧
          ∀ name, nextId? s₃.heap t name = nextId? s.heap d.tables name) ∧
    ∀ path p, s.Opens path p → ∃ s₁, backup id path s = .ok (.bool true) s₁ ∧ KeepsMemory s s₁ ∧
      ∀ (s₂ : Setting) (id₂ : Nat), (∀ text, s₁.Shows path text → s₂.Shows path text) →
        ∃ t s₃, restore id₂ path s₂ = .ok (.bool true) s₃ ∧ Loads s₂ s₃ id₂ tables t ∧
          ∀ name, nextId? s₃.heap t name = nextId? s.heap d.tables name := by
  obtain ⟨⟨nameDoc, hnameHolds, hnameFits⟩, hholds, hfits⟩ := hstorable
  have hname : s.heap.Writes ("name", nameDoc) ("name", d.name) := ⟨rfl, hnameHolds, hnameFits⟩
  have htables : s.heap.Writes ("tables", tables) ("tables", d.tables) := ⟨rfl, hholds, hfits⟩
  have hnumber {s₃ : Setting} {t : Value} (ht : s₃.heap.Holds tables t) (name : String) :
      nextId? s₃.heap t name = nextId? s.heap d.tables name := by
    rw [nextId?_eq ht, nextId?_eq hholds]
  constructor
  · intro p hopen
    rw [saveTables_eq hd]
    have hvalues : List.Forall₂ s.heap.Writes [("name", nameDoc), ("tables", tables)]
        (savedFields d) :=
      .cons hname (.cons htables .nil)
    obtain ⟨s₁, hsave, hmemory, htake⟩ := written_and_taken hopen (by simp) hvalues rfl
    refine ⟨s₁, hsave, hmemory, fun s₂ id₂ d₂ hd₂ hfile hsame => ?_⟩
    obtain ⟨⟨text, hshows⟩, t, s₃, hrun, hloads⟩ := htake s₂ id₂ hsame
    rw [← hfile] at hshows hrun
    refine ⟨t, s₃, ?_, hloads, hnumber hloads.holds⟩
    rw [loadTables_eq hd₂ hshows, bind_ok hrun]
    rfl
  · intro path p hopen
    rw [backup_eq hd]
    have hvalues : List.Forall₂ s.heap.Writes
        [("name", nameDoc), ("tables", tables), ("backup_time", .real s.clock)]
        (savedFields d ++ [("backup_time", .float s.clock)]) :=
      .cons hname (.cons htables (.cons ⟨rfl, .real s.clock, Json.Fits.leaf rfl rfl⟩ .nil))
    obtain ⟨s₁, hsave, hmemory, htake⟩ := written_and_taken hopen (by simp) hvalues rfl
    refine ⟨s₁, hsave, hmemory, fun s₂ id₂ hsame => ?_⟩
    obtain ⟨-, t, s₃, hrun, hloads⟩ := htake s₂ id₂ hsame
    refine ⟨t, s₃, ?_, hloads, hnumber hloads.holds⟩
    rw [restore, bind_ok hrun]
    rfl

theorem saveTables_tooDeep (hd : s.databases.databases[id]? = some d)
    (htables : s.heap.Holds tables d.tables) (hdeep : valueDepth - 1 < tables.depth) :
    ∃ h s', saveTables id s = .error h s' := by
  have hentries : (gathered s (savedFields d)).heap.entries s.heap.cells.size =
      [(.text "name", d.name), (.text "tables", d.tables)] :=
    Heap.entries_eq (by simp [gathered, Setting.withCell, savedFields])
  have hdoc : ∀ j, (gathered s (savedFields d)).heap.documentOf (valueDepth - 1 + 1) []
      (.object s.heap.cells.size) ≠ .ok j := by
    intro j hj
    obtain ⟨fs, -, hfields⟩ := Heap.documentOf_object hj
    rw [hentries] at hfields
    cases hfields with
    | cons _ hrest =>
      cases hrest with
      | cons hfield _ =>
        have hheld := htables.mono (gathered_keepsMemory s (savedFields d)).cells
        have htablesDoc := (fieldOf_ok.1 hfield).2
        have hfits := Heap.documentOf_fits _ htablesDoc
        rw [hheld.eq_of_documentOf htablesDoc] at hfits
        exact absurd hfits.depth (Nat.not_le.2 hdeep)
  rw [saveTables_eq hd]
  rcases writeFields_cases s (.text d.file) (savedFields d) with
    ⟨p, j, -, hj, -⟩ | ⟨-, f, hf⟩ | ⟨p, text, e, f, -, hf, -⟩
  · exact absurd hj (hdoc j)
  · exact ⟨_, _, hf⟩
  · exact ⟨_, _, hf⟩

/-- Arrays in arrays. -/
def nestedLists : Nat → Json
  | 0 => .list []
  | n + 1 => .list [nestedLists n]

/-- A cell of arrays in arrays: the first is empty, and every other one has the one before it. -/
def nestedCell : Nat → Cell
  | 0 => .array #[]
  | i + 1 => .array #[.array i]

/-- A database with one table, which has arrays in arrays as its schema. -/
def nestedTables (name : String) (n : Nat) : Setting where
  heap :=
    { cells := (Array.range (n + 1)).map nestedCell ++
        #[.array #[], .object [(.text "schema", .array n), (.text "data", .array (n + 1)),
          (.text "auto_increment", .int 1)], .object [(.text "t", .object (n + 2))]] }
  databases :=
    { databases :=
        #[{ name := .text name, tables := .object (n + 3), indexes := .null, file :=
          name ++ ".zendb" }] }

/-- The document of such tables. -/
def nestedDocument (n : Nat) : Json :=
  .fields
    [("t", .fields [("schema", nestedLists n), ("data", .list []), ("auto_increment", .whole 1)])]

theorem nestedLists_depth (n : Nat) : (nestedLists n).depth = n + 1 := by
  induction n with
  | zero => rfl
  | succ n ih => simp [nestedLists, Json.depth, Json.depthItems, ih]

theorem nestedLists_sized (n : Nat) : (nestedLists n).sized = true := by
  induction n with
  | zero => rfl
  | succ n ih => simp [nestedLists, Json.sized, Json.sizedItems, ih]

theorem nestedDocument_depth (n : Nat) : (nestedDocument n).depth = n + 3 := by
  simp [nestedDocument, Json.depth, Json.depthFields, Json.depthItems, nestedLists_depth]

theorem nestedDocument_sized (n : Nat) : (nestedDocument n).sized = true := by
  have hone : (Number.wholeText? 1).isSome = true := by decide +kernel
  simp [nestedDocument, Json.sized, Json.sizedFields, Json.sizedItems, nestedLists_sized, hone]

theorem nestedTables_lists (name : String) (n : Nat) {k : Nat} (hk : k ≤ n) :
    (nestedTables name n).heap.Holds (nestedLists k) (.array k) := by
  have hcell {i : Nat} (hi : i ≤ n) : (nestedTables name n).heap.cells[i]? =
      some (nestedCell i) := by
    rw [nestedTables, Array.getElem?_append_left (by simp; omega)]
    simp [Nat.lt_succ_of_le hi]
  induction k with
  | zero => exact .list (hcell hk) .nil
  | succ k ih => exact .list (hcell hk) (.cons (ih (Nat.le_of_succ_le hk)) .nil)

theorem nestedTables_holds (name : String) (n : Nat) :
    (nestedTables name n).heap.Holds (nestedDocument n) (.object (n + 3)) := by
  have hcell (i : Nat) : (nestedTables name n).heap.cells[n + 1 + i]? = (#[.array #[],
      .object [(.text "schema", .array n), (.text "data", .array (n + 1)),
        (.text "auto_increment", .int 1)], .object [(.text "t", .object (n + 2))]] :
        Array Cell)[i]? := by
    rw [nestedTables, Array.getElem?_append_right (by simp)]
    simp
  have hdata : (nestedTables name n).heap.Holds (.list []) (.array (n + 1)) := .list (hcell 0) .nil
  have htable : (nestedTables name n).heap.Holds
      (.fields [("schema", nestedLists n), ("data", .list []), ("auto_increment", .whole 1)])
      (.object (n + 2)) :=
    .fields (hcell 1) (by simp) rfl
      (.cons (nestedTables_lists name n le_rfl) (.cons hdata (.cons (.whole 1) .nil)))
  exact .fields (hcell 2) (by simp) rfl (.cons htable .nil)

theorem nestedTables_opens (n : Nat) :
    (nestedTables "d" n).Opens (.text "d.zendb") ["d.zendb"] := by
  have hplace : ({} : FileSystem).resolve [] "d.zendb" = .ok ["d.zendb"] := by decide +kernel
  refine ⟨"d.zendb", fun s => ?_, hplace, nofun, fun _ => ⟨by decide +kernel, rfl⟩⟩
  rw [openPath, if_neg (by decide +kernel)]
  rfl

theorem load_undoes_save_nested : ∃ t s₁ s₂,
    saveTables 0 (nestedTables "d" 800) = .ok (.bool true) s₁ ∧ loadTables 0 s₁ = .ok true s₂ ∧
      s₂.heap.Holds (nestedDocument 800) t ∧
      nextId? s₂.heap t "t" = nextId? (nestedTables "d" 800).heap (.object 803) "t" := by
  have hd : (nestedTables "d" 800).databases.databases[0]? = some
      { name := .text "d", tables := .object 803, indexes := .null, file := "d.zendb" } := rfl
  have hname : Json.Fits (valueDepth - 1) (.text "d") := Json.Fits.leaf rfl rfl
  have hfits : Json.Fits (valueDepth - 1) (nestedDocument 800) :=
    ⟨by rw [nestedDocument_depth]; decide, nestedDocument_sized 800⟩
  obtain ⟨s₁, hsave, hmemory, hload⟩ := (load_undoes_save hd
    ⟨⟨_, .text "d", hname⟩, nestedTables_holds "d" 800, hfits⟩).1 _ (nestedTables_opens 800)
  obtain ⟨t, s₂, hrun, hloads, hnext⟩ := hload s₁ 0 _ (hmemory.databases ▸ hd) rfl fun _ h => h
  exact ⟨t, s₁, s₂, hsave, hrun, hloads.holds, hnext "t"⟩

/-- Not all tables that hold a document can be saved: not where the directory of the file is
missing, and not where they are nested too deep. -/
theorem tables_not_saved : [("missing/d", 0), ("d", valueDepth)].Forall fun case =>
    (nestedTables case.1 case.2).heap.Holds (nestedDocument case.2) (.object (case.2 + 3)) ∧
      (nestedDocument case.2).sized = true ∧
      ∃ h s', saveTables 0 (nestedTables case.1 case.2) = .error h s' := by
  have hmissing : fails (fun _ => true) (saveTables 0 (nestedTables "missing/d" 0)) = true := by
    decide +kernel
  rw [List.forall_iff_forall_mem]
  intro case hcase
  refine ⟨nestedTables_holds _ _, nestedDocument_sized _, ?_⟩
  simp only [List.mem_cons, List.not_mem_nil, or_false] at hcase
  rcases hcase with rfl | rfl
  · obtain ⟨h, s', hrun, -⟩ := exists_of_fails hmissing
    exact ⟨h, s', hrun⟩
  · refine saveTables_tooDeep rfl (nestedTables_holds "d" valueDepth) ?_
    rw [nestedDocument_depth]
    omega

/-! ## What a failed save leaves -/

/-- A database that was just made: it has no tables, and its file is named after it. -/
structure Made (s s' : Setting) (name : String) : Prop where
  database : ∃ tables indexes, s'.databases = { s.databases with
    databases := s.databases.databases.push
      { name := .text name, tables := .object tables, indexes := .object indexes,
        file := name ++ ".zendb" } }
  files : s'.files = s.files
  cwd : s'.cwd = s.cwd

theorem newDatabase_made (s : Setting) (name : String) :
    ∃ s', newDatabase (.text name) s = .ok s.databases.databases.size s' ∧ Made s s' name :=
  ⟨_, rfl, ⟨_, _, rfl⟩, rfl, rfl⟩

/-- What the file at a path has cannot be taken for tables: restoring from it fails, and so does
loading a database that is kept there, and connecting to one that is not known yet. -/
structure Refuses (s : Setting) (path : Value) : Prop where
  restore : ∀ id, ∃ f, restore id path s = .error (.fault f) s
  load : ∀ (id : Nat) (d : Database), s.databases.databases[id]? = some d → path = .text d.file →
    ∃ f, loadTables id s = .error (.fault f) s
  connect : ∀ name : String, path = .text (name ++ ".zendb") →
    s.databases.registry.get? (.text name) = none → ∃ f s', connect (.text name) s = .error
    (.fault f) s'

theorem refuses_of_shows {text : String} (hshows : s.Shows path text) (hclean : '\r' ∉ text.toList)
    {e : JsonError} (hread : Json.read text = .error e) : Refuses s path := by
  have hload {s : Setting} {id : Nat} {d : Database} (hd : s.databases.databases[id]? = some d)
      (hshows : s.Shows (.text d.file) text) : ∃ f, loadTables id s = .error (.fault f) s := by
    obtain ⟨f, hf⟩ := takeTables_error hshows hclean id hread
    exact ⟨f, by rw [loadTables_eq hd hshows, bind_error hf]⟩
  refine ⟨fun id => ?_, fun id d hd hpath => hload hd (hpath ▸ hshows), fun name hpath hnew => ?_⟩
  · obtain ⟨f, hf⟩ := takeTables_error hshows hclean id hread
    exact ⟨f, by rw [restore, bind_error hf]⟩
  · obtain ⟨s₁, hmake, ⟨tables, indexes, hdatabases⟩, hfiles, hcwd⟩ := newDatabase_made s name
    -- the new database is registered before its file is read
    let s₂ : Setting := { s₁ with databases := { s₁.databases with
      registry := s.databases.registry.put (.text name)
        (.handle (.database s.databases.databases.size)) } }
    have hd : s₂.databases.databases[s.databases.databases.size]? = some
        { name := .text name, tables := .object tables, indexes := .object indexes,
          file := name ++ ".zendb" } := by
      simp [s₂, hdatabases]
    have hshows₂ : s₂.Shows (.text (name ++ ".zendb")) text := by
      obtain ⟨file, hname, hfile⟩ := hpath ▸ hshows
      refine ⟨file, hname, ?_⟩
      show s₁.files.read s₁.cwd file = _
      rw [hfiles, hcwd, hfile]
    obtain ⟨f, hf⟩ := hload hd hshows₂
    have hhash : hashable (.text name) s = .ok () s := rfl
    have hget : (get : Routine Setting) s = .ok s s := rfl
    have hdiscard : (discard (loadTables s.databases.databases.size) : Routine Unit) s₂ =
        .error (.fault f) s₂ := by
      show EStateM.map _ _ s₂ = _
      unfold EStateM.map
      rw [hf]
    have henroll : enroll (.text name) s.databases.registry s = .error (.fault f) s₂ :=
      (bind_ok hmake).trans ((bind_ok rfl).trans (bind_error hdiscard))
    refine ⟨f, s₂, (bind_ok hhash).trans ((bind_ok hget).trans ?_)⟩
    rw [hnew]
    exact bind_error henroll

/-- The change from one setting to another by a write to a path that failed. -/
structure FailedWrite (s s' : Setting) (path : Value) : Prop where
  memory : KeepsMemory s s'
  /-- where no file can be written, all files are as they were -/
  closed : (∀ p, ¬ s.Opens path p) → s'.files = s.files
  /-- otherwise this file alone has changed, to a text that no later setting takes for tables -/
  spoiled : ∀ p, s.Opens path p → ∃ text, s'.files = (s.withFile p text).files ∧
    s'.Shows path text ∧ ∀ later : Setting, later.Shows path text → Refuses later path

theorem failedWrite_of_error {s' : Setting} {fields : List (String × Value)} {h : Halt}
    (hrun : writeFields path fields s = .error h s') : FailedWrite s s' path := by
  rcases writeFields_cases s path fields with
    ⟨p, j, -, -, hok⟩ | ⟨hclosed, f, hfail⟩ | ⟨p, text, e, f, hopen, hfail, hclean, hread⟩
  · rw [hok] at hrun
    cases hrun
  · rw [hfail] at hrun
    cases hrun
    exact ⟨gathered_keepsMemory s fields, fun _ => rfl, fun p hp => absurd hp (hclosed p)⟩
  · rw [hfail] at hrun
    cases hrun
    refine ⟨⟨rfl, (gathered_keepsMemory s fields).cells⟩, fun hclosed =>
      absurd hopen (hclosed p), ?_⟩
    intro q hq
    obtain rfl := hopen.unique hq
    have hopen' : (gathered s fields).Opens path p := hopen
    exact ⟨text, rfl, hopen'.shows text, fun later hshows => refuses_of_shows hshows hclean hread⟩

/-- A save that fails leaves the memory as it was. Where the file cannot be opened, the files are
left as they were too. Otherwise it has been emptied, and has a text now that is refused whenever it
is to be loaded. The same goes for backups. -/
theorem failed_save_spoils_file {s s' : Setting} {id : Nat} {d : Database} {h : Halt}
    (hd : s.databases.databases[id]? = some d) :
    (saveTables id s = .error h s' → FailedWrite s s' (.text d.file)) ∧
      ∀ path, backup id path s = .error h s' → FailedWrite s s' path := by
  constructor
  · intro hrun
    rw [saveTables_eq hd] at hrun
    exact failedWrite_of_error hrun
  · intro path hrun
    rw [backup_eq hd] at hrun
    exact failedWrite_of_error hrun

theorem failed_save_spoils_file_nested : ∃ h s' text,
    saveTables 0 (nestedTables "d" valueDepth) = .error h s' ∧ s'.Shows (.text "d.zendb") text ∧
      Refuses s' (.text "d.zendb") := by
  have hd : (nestedTables "d" valueDepth).databases.databases[0]? = some
      { name := .text "d", tables := .object (valueDepth + 3), indexes := .null, file :=
        "d.zendb" } := rfl
  have hdeep : valueDepth - 1 < (nestedDocument valueDepth).depth := by
    rw [nestedDocument_depth]
    omega
  obtain ⟨h, s', hrun⟩ := saveTables_tooDeep hd (nestedTables_holds "d" valueDepth) hdeep
  have hfailed := (failed_save_spoils_file hd).1 hrun
  obtain ⟨text, -, hshows, hrefuses⟩ := hfailed.spoiled _ (nestedTables_opens valueDepth)
  exact ⟨h, s', text, hrun, hshows, hrefuses s' hshows⟩

/-- A database with a record that holds a function, and a file that has no tables. -/
def functionTables : Setting where
  heap :=
    { cells := #[.object [(.text "f", .function 0), (.text "id", .int 1)], .array #[.object 0],
        .object [], .object [(.text "schema", .object 2), (.text "data", .array 1),
          (.text "auto_increment", .int 2)], .object [(.text "t", .object 3)]] }
  files :=
    { nodes := [(["d.zendb"], .file "\x7b\"name\": \"d\", \"tables\": \x7b\x7d\x7d".toUTF8 0)] }
  databases :=
    { databases :=
        #[{ name := .text "d", tables := .object 4, indexes := .null, file := "d.zendb" }] }

/-- What was saved before can be lost by a save that fails: the file could be loaded, and it cannot
any more. -/
theorem failed_save_loses_file : ∃ h s', saveTables 0 functionTables = .error h s' ∧
    (∃ s₁, loadTables 0 functionTables = .ok true s₁) ∧
    ∃ h₁ s₁, loadTables 0 s' = .error h₁ s₁ := by
  obtain ⟨loaded, s₁, hload, hbefore⟩ : ∃ loaded s₁, loadTables 0 functionTables = .ok loaded s₁ ∧
      loaded = true := exists_of_passes (by decide +kernel)
  have hafter : fails (fun _ => true) (saveTables 0 functionTables) = true := by decide +kernel
  obtain ⟨h, s', hsave, -⟩ := exists_of_fails hafter
  have hopens : functionTables.Opens (.text "d.zendb") ["d.zendb"] := by
    refine ⟨"d.zendb", fun s => ?_, by decide +kernel, nofun, fun _ => ⟨by decide +kernel, rfl⟩⟩
    rw [openPath, if_neg (by decide +kernel)]
    rfl
  have hfailed : FailedWrite functionTables s' (.text "d.zendb") := by
    rw [saveTables_eq rfl] at hsave
    exact failedWrite_of_error hsave
  obtain ⟨text, -, hshows, hrefuses⟩ := hfailed.spoiled _ hopens
  obtain ⟨f, hlost⟩ := (hrefuses s' hshows).load 0 _ (by rw [hfailed.memory.databases]; rfl) rfl
  exact ⟨h, s', hsave, ⟨s₁, by rw [hload, hbefore]⟩, _, _, hlost⟩

end Package

end ScriptLang
