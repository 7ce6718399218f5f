import ScriptLang.Proofs.Tables
import ScriptLang.Proofs.TouchedCells

/-!
# Connections that fail

Connecting to a database that is not known yet makes one without tables, registers it, and only then
takes its tables from its file. So a connection that fails on the file has registered a database,
and the next one to the same name does not look at the file any more.
-/

namespace ScriptLang

open ScriptLang.Action ScriptLang.Library

variable {s s' : Setting} {name : Value}

/-! ## Loading -/

theorem Heap.Holds.empty {h : Heap} {l : Loc} (hcell : h.cells[l]? = some (.object [])) :
    h.Holds (.fields []) (.object l) :=
  .fields hcell (by simp) rfl .nil

theorem openPath_still (path : Value) : Still (openPath path) := by
  refine ⟨fun s _ => ?_⟩
  rcases openPath_cases path with ⟨name, hname⟩ | ⟨f, hf⟩
  · rw [hname s]
    exact ⟨trivial, rfl, trivial⟩
  · rw [hf s]
    exact ⟨trivial, rfl, trivial⟩

theorem readJsonFile_touches (path : Value) : TouchesOnly none (readJsonFile path) := by
  refine .after (openPath_still path) fun name => .after (readText_still name) fun text =>
    ⟨fun s _ => ?_⟩
  rcases readJson_cases text s with ⟨f, hf⟩ | ⟨j, v, s', -, hv, hgrows, -⟩
  · rw [hf]
    exact ⟨trivial, .refl none s, trivial⟩
  · rw [hv]
    exact ⟨trivial, Setting.touches_none.2 hgrows, trivial⟩

namespace Package

variable {id : Nat} {h : Halt} {file : String}

theorem tablesOf_touches (document : Value) : TouchesOnly none (tablesOf document) := by
  unfold tablesOf
  split
  · refine .after (entries_still _) fun es => ?_
    split
    · exact .done _
    · exact (TouchesOnly.alloc _).map fun _ _ => trivial
  · exact .of_still (noAttribute_still _ _)

/-- The tables are set at the end, so taking them adds cells at most if it fails. -/
theorem grows_of_takeTables {path : Value} (hrun : takeTables id path s = .error h s') :
    s.Grows s' := by
  have htables : TouchesOnly none (readJsonFile path >>= tablesOf) :=
    (readJsonFile_touches path).bind tablesOf_touches
  rw [takeTables, ← bind_assoc] at hrun
  rcases bind_eq_error hrun with hfail | ⟨_, _, _, hset⟩
  · exact Setting.touches_none.1 (htables.rel_of_error trivial hfail)
  · cases hset

theorem grows_of_loadTables (hrun : loadTables id s = .error h s') : s.Grows s' := by
  replace hrun := (bind_ok rfl).symm.trans ((bind_ok rfl).symm.trans hrun)
  split at hrun
  · rcases bind_eq_error hrun with htake | ⟨_, _, _, hdone⟩
    · exact grows_of_takeTables htake
    · cases hdone
  · cases hrun

/-! ## Connecting -/

/-- A new database of a name, without tables, stands at the end of the databases. -/
structure NewDatabase (s s' : Setting) (name : Value) (file : String) : Prop where
  database : ∃ tables indexes, s'.heap.cells[tables]? = some (.object []) ∧
    s'.databases.databases = s.databases.databases.push
      { name, tables := .object tables, indexes := .object indexes, file }
  /-- the file has the text of the name -/
  named : ∃ (s₀ : Setting) (word : String), s₀.text name = .ok word ∧ file = word ++ ".zendb"
  cells : ∀ (l : Loc) (c : Cell), s.heap.cells[l]? = some c → s'.heap.cells[l]? = some c

/-- What is left of a connection that failed: a database without tables, which is registered, and
nothing else. -/
structure LeftEmpty (s s' : Setting) (name : Value) (file : String) : Prop
    extends NewDatabase s s' name file where
  registry : s'.databases.registry =
    s.databases.registry.put name (.handle (.database s.databases.databases.size))
  current : s'.databases.current = s.databases.current
  files : s'.files = s.files
  cwd : s'.cwd = s.cwd

/-- A value cannot name a database: it is no key, or it has no text. -/
def Nameless (name : Value) : Prop :=
  name.unhashable? ≠ none ∨ ∃ (s : Setting) (f : Fault), s.text name = .error f

/-- A database is made, or its name has no text. -/
theorem newDatabase_cases (name : Value) (s : Setting) :
    (∃ f s', newDatabase name s = .error (.fault f) s' ∧ Nameless name ∧ s.Grows s') ∨
      ∃ file s', newDatabase name s = .ok s.databases.databases.size s' ∧
        NewDatabase s s' name file ∧
        s' = { s with heap := s'.heap, databases := s'.databases } ∧
        s'.databases = { s.databases with databases := s'.databases.databases } := by
  have hgrows : s.Grows ((s.withCell (.object [])).withCell (.object [])) :=
    (Setting.Grows.push s _).trans (.push (s.withCell (.object [])) _)
  have hrun : newDatabase name s = (do
      let file := (← text name) ++ ".zendb"
      modifyGet fun w =>
        (w.databases.databases.size,
          { w with databases :=
              { w.databases with
                databases := w.databases.databases.push
                  { name, tables := .object s.heap.cells.size,
                    indexes := .object (s.heap.cells.size + 1), file } } }) : Routine Nat)
      ((s.withCell (.object [])).withCell (.object [])) := by
    refine (bind_ok rfl).trans ((bind_ok rfl).trans ?_)
    simp [Setting.withCell]
  rw [hrun]
  have htext : text name ((s.withCell (.object [])).withCell (.object [])) =
    ofExcept (((s.withCell (.object [])).withCell (.object [])).text name) _ := rfl
  cases hfile : ((s.withCell (.object [])).withCell (.object [])).text name with
  | error f =>
    left
    rw [hfile] at htext
    exact ⟨f, _, bind_error htext, .inr ⟨_, f, hfile⟩, hgrows⟩
  | ok file =>
    right
    rw [hfile] at htext
    refine ⟨file ++ ".zendb", _, (bind_ok htext).trans rfl, ?_, rfl, rfl⟩
    refine ⟨⟨_, _, ?_, rfl⟩, ⟨_, file, hfile, rfl⟩, hgrows.cells⟩
    exact (Setting.Grows.push (s.withCell (.object [])) _).cells _ _ (by simp [Setting.withCell])

/-- A database is registered under a name. -/
def Known (s : Setting) (name : Value) (id : Nat) : Prop :=
  s.databases.registry.get? name = some (.handle (.database id))

theorem connect_known (hname : name.unhashable? = none) (hknown : Known s name id) :
    connect name s = choose id s := by
  refine (bind_ok (hashable_ok hname)).trans ((bind_ok rfl).trans ?_)
  rw [hknown]

theorem connect_unknown (hname : name.unhashable? = none) (hunknown : ∀ id, ¬ Known s name id) :
    connect name s = (enroll name s.databases.registry >>= choose) s := by
  refine (bind_ok (hashable_ok hname)).trans ((bind_ok rfl).trans ?_)
  cases hget : s.databases.registry.get? name with
  | none => rfl
  | some v =>
    cases v with
    | handle k =>
      cases k with
      | database id => exact absurd hget (hunknown id)
      | _ => rfl
    | _ => rfl

theorem enroll_error (hrun : enroll name s.databases.registry s = .error h s') :
    Nameless name ∧ s.Grows s' ∨ ∃ file, LeftEmpty s s' name file := by
  rcases newDatabase_cases name s with ⟨f, s₁, hfail, hname, hgrows⟩ | ⟨file, s₁, hmake, hnew,
    hrest, hsame⟩
  · rw [enroll, bind_error hfail] at hrun
    cases hrun
    exact .inl ⟨hname, hgrows⟩
  · -- the database is registered by the time its file is read
    obtain ⟨tables, indexes, hempty, hdatabases⟩ := hnew.database
    let s₂ : Setting := { s₁ with databases := { s₁.databases with
      registry := s.databases.registry.put name (.handle (.database s.databases.databases.size)) } }
    have hgrows : s₂.Grows s' := by
      rw [enroll, bind_ok hmake] at hrun
      replace hrun : ((fun _ => ()) <$> loadTables _ >>= fun _ => pure _ : Routine Nat) s₂ = _ :=
        hrun
      rw [map_eq_pure_bind, bind_assoc] at hrun
      rcases bind_eq_error hrun with hload | ⟨_, _, _, hdone⟩
      · exact grows_of_loadTables hload
      · cases hdone
    have hdatabases' : s'.databases = s₂.databases := by rw [hgrows.rest]
    right
    refine ⟨file, ⟨⟨⟨tables, indexes, hgrows.cells _ _ hempty, ?_⟩, hnew.named, ?_⟩, ?_,
      ?_, ?_, ?_⟩⟩
    · rw [hdatabases']
      exact hdatabases
    · intro l c hc
      exact hgrows.cells l c (hnew.cells l c hc)
    · rw [hdatabases']
    · rw [hdatabases']
      show s₁.databases.current = _
      rw [hsame]
    · have hfiles : s'.files = s₁.files := by rw [hgrows.rest]
      rw [hfiles, hrest]
    · have hcwd : s'.cwd = s₁.cwd := by rw [hgrows.rest]
      rw [hcwd, hrest]

/-- A connection that fails has registered a database without tables, unless the name was
refused. -/
theorem connect_error (hrun : connect name s = .error h s') : Nameless name ∧ s.Grows s' ∨
      name.unhashable? = none ∧ ∃ file, LeftEmpty s s' name file := by
  cases hname : name.unhashable? with
  | some type =>
    left
    refine ⟨.inl (by rw [hname]; nofun), ?_⟩
    have hrefused : hashable name s = .error (.fault (.unhashable type)) s := by
      rw [hashable, hname]
      rfl
    have hfail : connect name s = .error (.fault (.unhashable type)) s := bind_error hrefused
    cases hfail.symm.trans hrun
    exact .refl s
  | none =>
    by_cases hknown : ∃ id, Known s name id
    · obtain ⟨id, hknown⟩ := hknown
      rw [connect_known hname hknown] at hrun
      cases hrun
    · rw [connect_unknown hname fun id h => hknown ⟨id, h⟩] at hrun
      cases henroll : enroll name s.databases.registry s with
      | ok id s₁ =>
        rw [bind_ok henroll] at hrun
        cases hrun
      | error h₁ s₁ =>
        rw [bind_error henroll] at hrun
        cases hrun
        exact (enroll_error henroll).imp_right fun hleft => ⟨rfl, hleft⟩

/-! ## What follows -/

/-- A database of a name has no tables, and is kept in a file. -/
def Untouched (s : Setting) (id : Nat) (name : Value) (file : String) : Prop :=
  ∃ d tables, s.databases.databases[id]? = some d ∧ d.name = name ∧ d.file = file ∧
    d.tables = .object tables ∧ s.heap.cells[tables]? = some (.object [])

theorem LeftEmpty.untouched (h : LeftEmpty s s' name file) :
    Untouched s' s.databases.databases.size name file := by
  obtain ⟨tables, indexes, hempty, hdatabases⟩ := h.database
  refine ⟨{ name, tables := .object tables, indexes := .object indexes, file }, tables,
    ?_, rfl, rfl, rfl, hempty⟩
  rw [hdatabases]
  simp

theorem LeftEmpty.known (h : LeftEmpty s s' name file) (hname : name.sameKey name = true) :
    Known s' name s.databases.databases.size := by
  rw [Known, h.registry, Entries.get?_put_self hname]

/-- Saving a database without tables replaces its file by one from which no tables are loaded. -/
theorem Untouched.saves (h : Untouched s id name file) {j : Json} (hholds : s.heap.Holds j name)
    (hfits : Json.Fits (valueDepth - 1) j) {p : Path} (hopen : s.Opens (.text file) p) :
    ∃ s₁, saveTables id s = .ok (.bool true) s₁ ∧
      ∀ (s₂ : Setting) (id₂ : Nat) (d₂ : Database), s₂.databases.databases[id₂]? = some d₂ →
        d₂.file = file → (∀ text, s₁.Shows (.text file) text → s₂.Shows (.text file) text) →
        ∃ t s₃, loadTables id₂ s₂ = .ok true s₃ ∧ Loads s₂ s₃ id₂ (.fields []) t := by
  obtain ⟨d, tables, hd, rfl, rfl, htables, hempty⟩ := h
  have hnone : s.heap.Holds (.fields []) d.tables := by
    rw [htables]
    exact .empty hempty
  have hvalues : List.Forall₂ s.heap.Writes [("name", j), ("tables", .fields [])] (savedFields d) :=
    .cons ⟨rfl, hholds, hfits⟩ (.cons ⟨rfl, hnone, Json.Fits.leaf rfl rfl⟩ .nil)
  obtain ⟨s₁, hsave, -, htake⟩ := written_and_taken hopen (by simp) hvalues rfl
  refine ⟨s₁, by rw [saveTables_eq hd, hsave], ?_⟩
  intro s₂ id₂ d₂ hd₂ hfile hsame
  obtain ⟨⟨text, hshows⟩, t, s₃, hrun, hloads⟩ := htake s₂ id₂ hsame
  rw [← hfile] at hshows hrun
  exact ⟨t, s₃, by rw [loadTables_eq hd₂ hshows, bind_ok hrun]; rfl, hloads⟩

/-- A connection that fails leaves the databases as they were if the value cannot name one.
Otherwise a database without tables is left, and registered, and nothing else has changed. As long
as it is registered, every connection to its name succeeds and gives it, whatever its file has; and
as long as it has no tables, saving it replaces the file by one from which no tables are loaded. -/
theorem failed_connection_leaves_database {s s' : Setting} {name : Value} {h : Halt}
    (hrun : connect name s = .error h s') :
    Nameless name ∧ s.Grows s' ∨
      ∃ file, LeftEmpty s s' name file ∧
        (name.sameKey name = true → Known s' name s.databases.databases.size) ∧
        (∀ later, Known later name s.databases.databases.size →
          connect name later = .ok (.handle (.database s.databases.databases.size))
            { later with databases :=
                { later.databases with current := some s.databases.databases.size } }) ∧
        Untouched s' s.databases.databases.size name file ∧
        ∀ later j p, Untouched later s.databases.databases.size name file →
          later.heap.Holds j name → Json.Fits (valueDepth - 1) j → later.Opens (.text file) p →
          ∃ s₁, saveTables s.databases.databases.size later = .ok (.bool true) s₁ ∧
            ∀ (s₂ : Setting) (id₂ : Nat) (d₂ : Database), s₂.databases.databases[id₂]? = some d₂ →
              d₂.file = file → (∀ text, s₁.Shows (.text file) text → s₂.Shows (.text file) text) →
              ∃ t s₃, loadTables id₂ s₂ = .ok true s₃ ∧ Loads s₂ s₃ id₂ (.fields []) t := by
  rcases connect_error hrun with hrefused | ⟨hname, file, hleft⟩
  · left
    exact hrefused
  · right
    refine ⟨file, hleft, hleft.known, ?_, hleft.untouched, ?_⟩
    · intro later hknown
      exact connect_known hname hknown
    · intro later j p huntouched hholds hfits hopen
      exact huntouched.saves hholds hfits hopen

/-- A file that has no document. -/
def spoiledFile : Setting where
  files := { nodes := [(["d.zendb"], .file "no document".toUTF8 0)] }

theorem spoiledFile_leaves_database :
    ∃ f s', connect (.text "d") spoiledFile = .error (.fault f) s' ∧
    LeftEmpty spoiledFile s' (.text "d") "d.zendb" ∧ Known s' (.text "d") 0 := by
  have hfails : fails Halt.isFault (connect (.text "d") spoiledFile) = true := by decide +kernel
  obtain ⟨h, s', hrun, hfault⟩ := exists_of_fails hfails
  cases h with
  | fault f =>
    refine ⟨f, s', hrun, ?_⟩
    rcases failed_connection_leaves_database hrun with ⟨hname, -⟩ | ⟨file, hleft, hknown, -⟩
    · -- a text is a key, and has a text
      rcases hname with hkey | ⟨s₀, e, htext⟩
      · exact absurd rfl hkey
      · cases htext
    · obtain ⟨s₀, word, hword, rfl⟩ := hleft.named
      cases hword
      exact ⟨hleft, hknown (by decide)⟩
  | _ => cases hfault

/-- Whether a second connection to the name of the file succeeds, and saving the database that it
gives replaces what the file had. -/
def spoiledFile.replaced : Bool :=
  match connect (.text "d") spoiledFile with
  | .error (.fault _) s₁ => match connect (.text "d") s₁ with
    | .ok (.handle (.database 0)) s₂ => match saveTables 0 s₂ with
      | .ok (.bool true) s₃ =>
          match s₂.files.read s₂.cwd "d.zendb", s₃.files.read s₃.cwd "d.zendb" with
        | .ok before, .ok after =>
            decide (before = "no document".toUTF8 ∧ after ≠ "no document".toUTF8)
        | _, _ => false
      | _ => false
    | _ => false
  | _ => false

theorem spoiledFile_connected : ∃ f s₁ s₂ s₃ bytes,
    connect (.text "d") spoiledFile = .error (.fault f) s₁ ∧
    connect (.text "d") s₁ = .ok (.handle (.database 0)) s₂ ∧
    s₂.files.read s₂.cwd "d.zendb" = .ok "no document".toUTF8 ∧
    saveTables 0 s₂ = .ok (.bool true) s₃ ∧
    s₃.files.read s₃.cwd "d.zendb" = .ok bytes ∧ bytes ≠ "no document".toUTF8 := by
  have hruns : spoiledFile.replaced = true := by decide +kernel
  unfold spoiledFile.replaced at hruns
  split at hruns <;> try cases hruns
  next f s₁ hfirst =>
  split at hruns <;> try cases hruns
  next s₂ hsecond =>
  split at hruns <;> try cases hruns
  next s₃ hsave =>
  split at hruns <;> try cases hruns
  next before after hbefore hafter =>
  obtain ⟨rfl, hchanged⟩ := of_decide_eq_true hruns
  exact ⟨f, s₁, s₂, s₃, after, hfirst, hsecond, hbefore, hsave, hafter, hchanged⟩

end Package

end ScriptLang
