import ScriptLang.Proofs.PlainLibrary

/-!
# Packages leave functions and instances alone

What the functions and methods of packages do to the heap: they add cells and change what arrays and
objects hold, nothing else. That a routine is tame in this sense is seen from how it is put
together, so it is a class: the instances for the routines that touch the setting are proved, and
all others are found by parts. In the order of the packages; nothing is said about the data.
-/

namespace ScriptLang

open ScriptLang.Action ScriptLang.Policy ScriptLang.Library ScriptLang.Toolkit

/-- A routine adds cells and changes what arrays and objects hold, nothing else of the heap. -/
abbrev Tame {α : Type} (r : Routine α) : Prop :=
  Keeps false r

/-- The routines that are tame, as a class. -/
class IsTame {α : Type} (r : Routine α) : Prop where
  tame : Tame r

/-! ## How routines are put together -/

namespace IsTame

variable {α β : Type} {x : Routine α}

theorem of {Q : α → Prop} (h : Keeps false x Q) : IsTame x :=
  ⟨h.any⟩

/-- What is known to keep the heap in order is tame. -/
instance {Q : α → Prop} [h : Keeps false x Q] : IsTame x := .of h

instance bind (f : α → Routine β) [hx : IsTame x] [hf : ∀ a, IsTame (f a)] : IsTame (x >>= f) :=
  ⟨hx.tame.bind fun a _ => (hf a).tame⟩

instance (f : α → β) [hx : IsTame x] : IsTame (f <$> x) :=
  ⟨hx.tame.map fun _ _ => trivial⟩

instance discard [hx : IsTame x] : IsTame (discard x) :=
  ⟨hx.tame.discard⟩

instance (c : Prop) [Decidable c] (y : Routine α) [hx : IsTame x] [hy : IsTame y] :
    IsTame (if c then x else y) :=
  ⟨.ite hx.tame hy.tame⟩

instance tryCatch (handler : Halt → Routine α) [hx : IsTame x] [hh : ∀ e, IsTame (handler e)] :
    IsTame (tryCatch x handler) :=
  ⟨hx.tame.tryCatch fun e _ => (hh e).tame⟩

instance onFault (handler : Fault → Routine α) [hx : IsTame x] [hh : ∀ f, IsTame (handler f)] :
    IsTame (Action.onFault x handler) :=
  ⟨hx.tame.onFault fun f => (hh f).tame⟩

instance forM (xs : List α) (f : α → Routine PUnit) [h : ∀ a, IsTame (f a)] : IsTame (xs.forM f) :=
  ⟨.forM fun a _ => (h a).tame⟩

instance mapM (xs : List α) (f : α → Routine β) [h : ∀ a, IsTame (f a)] : IsTame (xs.mapM f) :=
  .of (.mapM fun a _ => (h a).tame)

instance foldlM (xs : List α) (f : β → α → Routine β) (b : β) [h : ∀ b a, IsTame (f b a)] :
    IsTame (xs.foldlM f b) :=
  ⟨.foldlM trivial fun a _ b _ => (h b a).tame⟩

instance (xs : List α) (f : α → Routine Bool) [h : ∀ a, IsTame (f a)] : IsTame (xs.filterM f) :=
  .of (.filterM fun a _ => (h a).tame)

theorem aside {f : Setting → Setting} (hf : ∀ s, (f s).heap = s.heap)
    (hexchange : ∀ s, (f s).exchange = s.exchange) : IsTame (modify f : Routine PUnit) :=
  ⟨.aside hf hexchange⟩

theorem asideGet {f : Setting → α × Setting} (hf : ∀ s, (f s).2.heap = s.heap)
    (hexchange : ∀ s, (f s).2.exchange = s.exchange) : IsTame (modifyGet f : Routine α) :=
  ⟨.asideGet hf (fun _ => trivial) hexchange⟩

/-- By parts: a sequence by what comes first and what follows, a choice by its branches, and a
change of the setting by what it leaves alone. -/
theorem parts (h : IsTame x := by
    repeat' first
      | with_reducible infer_instance
      | split
      | with_reducible refine @IsTame.bind _ _ _ _ ?_ fun _ => ?_
      | with_reducible refine @IsTame.tryCatch _ _ _ ?_ fun _ => ?_
      | with_reducible refine @IsTame.onFault _ _ _ ?_ fun _ => ?_
      | with_reducible refine @IsTame.discard _ _ ?_
      | with_reducible refine @IsTame.forM _ _ _ fun _ => ?_
      | with_reducible refine @IsTame.mapM _ _ _ _ fun _ => ?_
      | with_reducible refine @IsTame.foldlM _ _ _ _ _ fun _ _ => ?_
      | (with_reducible apply IsTame.aside) <;> (intro; rfl)
      | (with_reducible apply IsTame.asideGet) <;> (intro; rfl)
      | dsimp only) : IsTame x :=
  h

end IsTame

/-! ## Values -/

namespace Action

variable {α : Type} (v w key : Value) (path : String)

instance (d : Derived) : IsTame (newDerived d) := .of (.newDerived nofun)

instance (fields : List (String × Value)) : IsTame (objectOf fields) :=
  .of (.newObject (Entries.fits_loose _))

instance (l : Loc) (f : Array Value → Array Value) : IsTame (modifyItems l f) :=
  ⟨.modifyItems fun _ _ x _ => x.fits_loose⟩

instance (l : Loc) (xs : Array Value) :
    IsTame (setItems l xs) := ⟨.setItems fun x _ => x.fits_loose⟩

instance (l : Loc) (f : Entries → Entries) : IsTame (modifyEntries l f) :=
  ⟨.modifyEntries fun _ _ => Entries.fits_loose _⟩

instance : IsTame (setItem v key w) := ⟨setItem_keeps w.fits_loose nofun⟩

instance (f : Json.Layout) : IsTame (jsonText f v) := by unfold jsonText; exact .parts

instance (f : Json.Layout) : IsTame (jsonPart f v) := by unfold jsonPart; exact .parts

instance (s : String) : IsTame (readJson s) := by unfold readJson; exact .parts

/-! ## Files and directories -/

theorem ofFile_still (path : String) (r : Except FileError α) :
    Policy.still.Ensures (ofFile path r) fun _ => True := by
  cases r with
  | ok a => exact .pure trivial
  | error e => exact .throw trivial

instance (r : Except FileError α) : IsTame (ofFile path r) :=
  ⟨.of_still (ofFile_still path r) fun _ => trivial⟩

/-- A change of the setting outside the heap and the answer, after a file operation in the setting
as it is. -/
theorem ofFile_set_tame (path : Setting → String) (op : Setting → Except FileError α)
    (f : Setting → α → Setting) (hf : ∀ s a, (f s a).heap = s.heap)
    (hexchange : ∀ s a, (f s a).exchange = s.exchange := by intro _ _; rfl) : IsTame (do
      let s ← get
      let a ← ofFile (path s) (op s)
      set (f s a)) := by
  refine ⟨.get_bind fun s => .still_bind (ofFile_still _ _) (fun _ => trivial) fun a _ => ?_⟩
  refine .set (fun hs => ?_) ⟨?_, hexchange s a⟩
  · show (f s a).heap.Fits false
    rw [hf]
    exact hs
  · rw [hf]
    exact .refl _

instance : IsTame (pathText v) := by unfold pathText; exact .parts

instance : IsTame (openPath v) := by unfold openPath; exact .parts

instance : IsTame (readBytes path) := by unfold readBytes; exact .parts

instance : IsTame (readText path) := by unfold readText decodeText; exact .parts

instance (content : ByteArray) : IsTame (writeBytes path content) :=
  ofFile_set_tame _ _ _ fun _ _ => rfl

instance (path content : String) :
    IsTame (writeText path content) := by unfold writeText; exact .parts

instance (path : Value) (content : Routine (String × Option Fault)) [IsTame content] :
    IsTame (writeThrough path content) := by unfold writeThrough; exact .parts

instance : IsTame (pathPresent v) := by unfold pathPresent; exact .parts

instance (op : FileSystem → Path → Except FileError FileSystem) : IsTame (changeFiles path op) :=
  ofFile_set_tame _ _ _ fun _ _ => rfl

instance : IsTame (makeLast path) := by unfold makeLast; exact .parts

instance (n : Nat) : IsTame (makeDirectoriesUpTo n path) := by
  induction n generalizing path <;> rw [makeDirectoriesUpTo] <;> exact .parts

instance : IsTame (makeDirectories path) := by unfold makeDirectories; exact .parts

instance : IsTame (makeNewDirectory path) := by unfold makeNewDirectory; exact .parts

instance : IsTame (removeTree path) := by
  refine ⟨.get_bind fun s => .still_bind (ofFile_still _ _) (fun _ => trivial) fun r _ => ?_⟩
  split
  · exact .of_ensures (.fail _)
  · exact .set_bind id ⟨.refl _, rfl⟩ IsTame.tame

instance (path v : Value) : IsTame (writeJson path v) := by unfold writeJson; exact .parts

instance (path : Value) : IsTame (readJsonFile path) := by unfold readJsonFile; exact .parts

end Action

namespace Package

variable {α : Type} (id : Nat) (name : String) (args : List Value)

/-! ## Console, prompts and clock -/

instance (f : OutputFn) : IsTame (runOutput f args) := by
  cases f <;> simp only [runOutput] <;> exact .parts

instance orCancel.isTame (act : Routine α) [IsTame act] : IsTame (orCancel act) := by
  unfold orCancel
  exact .parts

instance askUntil.isTame (round : Routine (Option Value)) [IsTame round] (n : Nat) :
    IsTame (askUntil round n) := by
  induction n <;> unfold askUntil <;> exact .parts

instance (prompt : Value) : IsTame (askNumber prompt) :=
  @orCancel.isTame _ _ (@askUntil.isTame _ .parts _)

instance (prompt : String) (options : Value) (n : Nat) : IsTame (askOption prompt options n) := by
  induction n <;> unfold askOption <;> exact .parts

instance (f : PromptFn) : IsTame (runPrompt f args) := by
  cases f <;> simp only [runPrompt, askChoice, askYesNo, askLower, printOptions] <;> exact .parts

instance (f : ClockFn) : IsTame (runClock f args) := by
  cases f <;> simp only [runClock, dateText] <;> exact .parts

/-! ## Mathematics -/

instance : IsTame (domainFault : Routine α) := ⟨.fail _⟩

instance (f : MathFn) : IsTame (runMath f args) := by
  cases f <;> simp only [runMath, randomUnit, randomInt, randomBelow, wholeNear, power,
    onFinite] <;>
    exact .parts

/-! ## The system -/

instance (line : String) : IsTame (runCommand line) :=
  ⟨.get_bind fun _ => .set_bind (fun h => h) ⟨.refl _, rfl⟩ (.pure trivial)⟩

instance (what : String) (act : Routine α) [IsTame act] : IsTame (reporting what act) := by
  unfold reporting; exact .parts

instance (f : SystemFn) : IsTame (runSystem f args) := by
  cases f <;> simp only [runSystem, commandLine, environmentName, putEnvironment] <;> exact .parts

/-! ## Servers -/

/-- Where a server listens. -/
structure Address where
  host : Value
  port : Value

def addressOf (server : HttpServer) : Address :=
  ⟨server.host, server.port⟩

/-- What starting and stopping servers leaves alone of the http package: the addresses of the
servers, which one is current and the router. -/
structure Outline where
  addresses : Array Address
  current : Option Nat
  router : Value

def outline (s : Setting) : Outline :=
  ⟨s.http.servers.map addressOf, s.http.current, s.http.router⟩

/-- A routine starts and stops servers, and does no more to the heap, the answer that is being
written and the http package. -/
abbrev Attends {α : Type} (x : Routine α) : Prop :=
  (keeping fun s : Setting => (s.heap, s.exchange, outline s) : Policy Halt Setting).Ensures x
    fun _ => True

theorem Attends.tame {x : Routine α} (h : Attends x) : Tame x := by
  refine h.coarsen (fun _ _ => trivial) (fun s s' hs _ hsame => ?_) fun _ _ => trivial
  obtain ⟨hheap, hrest⟩ := Prod.mk.inj hsame
  refine ⟨?_, ?_, (Prod.mk.inj hrest).1⟩
  · show s'.heap.Fits false
    rwa [hheap]
  · rw [hheap]
    exact .refl _

theorem Attends.of_still {x : Routine α} (h : Still x) : Attends x :=
  h.of_still fun _ => trivial

theorem printLine_attends (line : String) : Attends (printLine line) :=
  .change fun _ _ => ⟨trivial, rfl⟩

theorem openListener_attends (port : Value) : Attends (openListener port) :=
  (Attends.of_still .get).seq <| (Attends.of_still (equal_still _ _)).seq <| .ite (.throw trivial)
    (.changeGet fun _ _ => ⟨trivial, rfl, trivial⟩)

instance (port : Value) : IsTame (openListener port) := ⟨(openListener_attends port).tame⟩

theorem serveForever_attends (port : Value) : Attends (serveForever port) :=
  (Attends.of_still .get).seq <| (Attends.of_still (equal_still _ _)).seq <|
    .ite (.throw trivial) (.pure trivial)

instance (port : Value) : IsTame (serveForever port) := ⟨(serveForever_attends port).tame⟩

instance (f : HostingFn) : IsTame (runHosting f args) := by
  cases f <;> simp only [runHosting, startHosting] <;> exact .parts

instance : IsTame (serverAt id) := by unfold serverAt; exact .parts

theorem serverAt_still : Still (serverAt id) :=
  .get_bind fun _ => .done _

instance (host port : Value) : IsTame (newServer host port) := by unfold newServer; exact .parts

theorem map_modify_addressOf (servers : Array HttpServer) (id : Nat) {f : HttpServer → HttpServer}
    (hf : ∀ v, addressOf (f v) = addressOf v) :
    (servers.modify id f).map addressOf = servers.map addressOf := by
  refine Array.ext (by simp) fun i h h' => ?_
  rw [Array.getElem_map, Array.getElem_map, Array.getElem_modify]
  split
  · exact hf _
  · rfl

theorem modifyServer_attends {f : HttpServer → HttpServer}
    (hf : ∀ v, addressOf (f v) = addressOf v) : Attends (modifyServer id f) := by
  refine .change fun s _ => ⟨trivial, ?_⟩
  show (s.heap, s.exchange, Outline.mk _ _ _) = (s.heap, s.exchange, Outline.mk _ _ _)
  rw [map_modify_addressOf _ _ hf]

theorem listen_attends (id listener : Nat) :
    Attends (modifyServer id fun s => { s with listener := some listener, running := true }) :=
  modifyServer_attends id fun _ => rfl

theorem halt_attends : Attends (modifyServer id fun s => { s with running := false }) :=
  modifyServer_attends id fun _ => rfl

theorem serverAddress_still (s : HttpServer) : Still (serverAddress s) :=
  (text_still _).bind fun _ => (text_still _).bind fun _ => .done _

theorem announce_attends (line : String) (s : HttpServer) :
    Attends (do printLine (line ++ (← serverAddress s))) :=
  (Attends.of_still (serverAddress_still s)).seq <| printLine_attends _

theorem stopServer_attends : Attends (stopServer id) :=
  (Attends.of_still (serverAt_still id)).seq <| .ite
    ((halt_attends id).seq <| printLine_attends _) (.pure trivial)

theorem startServer_attends : Attends (startServer id) := by
  refine (Attends.of_still (serverAt_still id)).bind fun s _ =>
    .ite (announce_attends _ s) (.tryCatch ?_ fun e _ => ?_)
  · exact (openListener_attends _).seq <| (listen_attends id _).seq <|
      (Attends.of_still (serverAddress_still s)).seq <| (printLine_attends _).seq <|
      (printLine_attends _).seq <| serveForever_attends _
  · cases e with
    | interrupt => exact (printLine_attends _).seq <| stopServer_attends _
    | exit v => exact .throw trivial
    | foreign name => exact .throw trivial
    | fault f => exact (printLine_attends _).seq <| halt_attends id

theorem startAside_attends : Attends (startAside id) :=
  (Attends.of_still (serverAt_still id)).bind fun s _ => .ite (announce_attends _ s)
    ((startServer_attends _).seq <| announce_attends _ s)

instance : IsTame (stopServer id) := ⟨(stopServer_attends id).tame⟩

instance : IsTame (startServer id) := ⟨(startServer_attends id).tame⟩

instance : IsTame (startAside id) := ⟨(startAside_attends id).tame⟩

instance (f : HttpFn) : IsTame (runHttp f args) := by
  cases f <;> simp only [runHttp, currentServer, createServer, useServer, setRouter] <;>
    exact .parts

instance : IsTame (serverMember? id name) := by unfold serverMember?; exact .parts

instance : IsTame (callServer id name args) := by unfold callServer setRouter; exact .parts

/-! ## Requests to other computers -/

instance (reason : String) : IsTame (openFault reason : Routine α) := ⟨.fail _⟩

instance (address : String) : IsTame (requestFor address) := by unfold requestFor; exact .parts

instance (r : NetRequest) : IsTame (sendRequest r) := by
  unfold sendRequest askHost hostWithoutPort refuseControls localContent carriedContent
  exact .parts

instance (r : Reply) : IsTame (bodyText r) := by unfold bodyText; exact .parts

instance (method url data headers : Value) :
    IsTame (sendAny method url data headers) := by
  unfold sendAny refuseUnsendable addHeaders; exact .parts

instance (attempt : Routine Value) [IsTame attempt] (delay : Value) (n : Nat) (last : String) :
    IsTame (retrying attempt delay n last) := by
  induction n generalizing last <;> rw [retrying] <;> exact .parts

instance (v : Value) : IsTame (pairOf v) := by unfold pairOf twoOf; exact .parts

instance : IsTame refuseFields := ⟨.fail _⟩

instance (f : NetworkFn) : IsTame (runNetwork f args) := by
  cases f <;> simp only [runNetwork, retried, fetch, parseUrl, sendData, openAddress,
    refuseUnsendable, addressText?, urlDecode, urlEncode, queryFields, encodeField, fieldPairs] <;>
    exact .parts

/-! ## Sites -/

instance (content : Value) (fields : List (String × String)) :
    IsTame (fillTemplate content fields) := by
  induction fields generalizing content with
  | nil => unfold fillTemplate; exact .parts
  | cons f fields ih => cases content <;> simp only [fillTemplate] <;> exact .parts

instance (f : SiteFn) : IsTame (runSite f args) := by
  cases f <;> simp only [runSite, startSite, addRoute, listTag, tableTag, stopSite, tagWith,
    requestField, dataValue, queryValue, modifySite, lookupOr, requestPart?, textFields, tag,
    render] <;> exact .parts

/-! ## Terminal programs -/

instance (message stop : Value) (n i : Nat) : IsTame (spin message stop n i) := by
  induction n generalizing i <;> unfold spin <;> exact .parts

instance (n : Nat) (cells : List Value) : IsTame (cellTexts n cells) := by
  induction cells generalizing n <;> cases n <;> unfold cellTexts <;> exact .parts

instance (n : Nat) (row : Value) : IsTame (rowTexts n row) := by unfold rowTexts; exact .parts

instance (v : Value) (rules : List Value) : IsTame (validate v rules) := by
  induction rules with
  | nil => unfold validate; exact .parts
  | cons rule rules ih => cases rule <;> simp only [validate, ruleBound] <;> exact .parts

instance (name version : Value) : IsTame (newApp name version) :=
  ⟨.get_bind fun _ => .set_bind (fun h => h) ⟨.refl _, rfl⟩ (.pure trivial)⟩

instance (f : TerminalFn) : IsTame (runTerminal f args) := by
  cases f <;> simp only [runTerminal, printTable, printProgress, printBox, printLines,
    askLower, dateText, printOptions, printTitle, printSeparator, menu, saveData, loadData,
    colorize] <;> exact .parts

instance : IsTame (appMember? id name) := by unfold appMember? appAt; exact .parts

instance : IsTame (callApp id name args) := by unfold callApp appAt printTitle; exact .parts

end Package

/-! ## Windows and widgets -/

namespace Toolkit

instance (f : GuiState → GuiState) : IsTame (modifyGui f) := by unfold modifyGui; exact .parts

instance (id : Nat) : IsTame (object? id) := by unfold object?; exact .parts

end Toolkit

namespace Package

variable {α : Type} (id : Nat) (name : String) (args : List Value)

instance (f : GuiFn) : IsTame (runGui f args) := by
  cases f <;> simp only [runGui, addLabel, addTextBox, addTextArea, addListBox, note,
    configure, optionOf, Toolkit.replaceText, dialog, geometry, createWindow, iconFile, onWindow,
    addWidget, addButton,
    addCheckbox, withWidget, toWidget, withKind, setText, getText, textOf, onClick, selectedItem,
    Toolkit.make, Toolkit.perform, Toolkit.update, placeAt] <;> exact .parts

/-! ## Databases -/

instance : IsTame (databaseAt id) := by unfold databaseAt; exact .parts

instance (name : Value) : IsTame (newDatabase name) := by unfold newDatabase; exact .parts

instance : IsTame (loadTables id) := by
  unfold loadTables takeTables setTables tablesOf; exact .parts

instance (name : Value) : IsTame (tableOf id name) := by unfold tableOf; exact .parts

instance (name : Value) : IsTame (recordsOf id name) := by unfold recordsOf; exact .parts

theorem fieldsMatch_still (record : Value) (conditions : Entries) :
    Still (fieldsMatch record conditions) := by
  induction conditions with
  | nil => exact .done _
  | cons e rest ih =>
    refine (contains_still _ _).bind fun _ => .ite ?_ (.done _)
    exact (getItem_still _ _).bind fun _ => (equal_still _ _).bind fun _ => .ite ih (.done _)

instance (record : Value) (conditions : Entries) : IsTame (fieldsMatch record conditions) :=
  ⟨(fieldsMatch_still record conditions).of_still fun _ => trivial⟩

instance (name conditions limit : Value) :
    IsTame (selectRecords id name conditions limit) := by
  unfold selectRecords limited meets fieldsOf; exact .parts

instance (conditions changes : Value) (n : Nat) (record : Value) :
    IsTame (updateRecord conditions changes n record) := by
  unfold updateRecord meets fieldsOf; exact .parts

instance (c : Cell) : IsTame (alloc c) := ⟨.alloc c.fits_loose⟩

instance (table : Value) : IsTame (newQuery table) := by unfold newQuery; exact .parts

instance (name additions removals : Value) : IsTame (migrate id name additions removals) := by
  unfold migrate removeFields addMissing fieldsOf; exact .parts

instance (f : DatabaseFn) : IsTame (runDatabase f args) := by
  cases f <;> simp only [runDatabase, extremeField, sumField, createTable, insertRecord,
    numberRecord, storeRecord, updateRecords, deleteRecords, saveTables, countRecords,
    meets, fieldsOf,
    dateText, connect, enroll, choose, connected, selectHere, firstOf, fieldOrZero, backup,
    writeFields,
    restore, takeTables, setTables, tablesOf] <;> exact .parts

instance : IsTame (databaseMember? id name) := by unfold databaseMember?; exact .parts

instance : IsTame (callDatabase id name args) := by
  unfold callDatabase createTable insertRecord numberRecord storeRecord updateRecords deleteRecords
    saveTables writeFields countRecords meets fieldsOf
  exact .parts

instance : IsTame (queryMember? id name) := by
  unfold queryMember? queryAt; exact .parts

instance : IsTame (callQuery id name args) := by
  unfold callQuery runQuery limitQuery firstOf selectHere connected queryAt
  exact .parts

/-! ## Files -/

instance (operation kinds : String) (v : Value) :
    IsTame (pathFor operation kinds v) := by unfold pathFor; exact .parts

instance (operation : String) (v : Value) :
    IsTame (pathOrOpen operation v) := by unfold pathOrOpen; exact .parts

instance (v : Value) : IsTame (nodeAt v) := by unfold nodeAt; exact .parts

theorem sameNode_still (a b : String) : Policy.still.Ensures (sameNode a b) fun _ => True := by
  refine Ensures.get.bind fun w _ => ?_
  split
  · exact .pure trivial
  · exact .pure trivial

instance (a b : String) : IsTame (sameNode a b) := by unfold sameNode; exact .parts

instance (source target : String) : IsTame (copyFile source target) := by
  unfold copyFile writeCopy
  exact .parts

instance (source target : String) : IsTame (copyTree source target) := by
  refine @IsTame.bind _ _ _ _ inferInstance fun w => @IsTame.bind _ _ _ _ inferInstance fun r => ?_
  split
  · infer_instance
  · exact @IsTame.bind _ _ _ _ inferInstance fun _ => ofFile_set_tame _ _ _ fun _ _ => rfl

instance (source target : String) : IsTame (moveNode source target) := by
  refine ⟨.get_bind fun w => .still_bind (sameNode_still _ _) (fun _ => trivial) fun same _ => ?_⟩
  refine .ite (.of_ensures (.pure trivial)) (.ite (.of_ensures (.fail_bind _ _)) ?_)
  split
  · exact .set (fun h => h) ⟨.refl _, rfl⟩
  · exact .of_ensures (@IsTame.tame _ _ .parts)

instance (names row : List String) : IsTame (namedRow names row) := by unfold namedRow; exact .parts

instance (v : Value) : IsTame (fieldText v) := by unfold fieldText; exact .parts

instance (row : Value) : IsTame (plainRow row) := by unfold plainRow; exact .parts

instance (names : List Value) (row : Value) :
    IsTame (headedRow names row) := by unfold headedRow; exact .parts

instance (act : Routine α) [IsTame act] : IsTame (caught act) := by unfold caught; exact .parts

instance (row : Value → Routine String) [∀ v, IsTame (row v)] (vs : List Value) (acc : String) :
    IsTame (writtenRows row vs acc) := by
  induction vs generalizing acc <;> unfold writtenRows <;> exact .parts

instance (data headers : Value) :
    IsTame (tableText data headers) := by unfold tableText; exact .parts

instance (directory : String) (e : Archive.Entry) :
    IsTame (unpack directory e) := by unfold unpack; exact .parts

instance (path : Value) : IsTame (modifiedAt path) := by unfold modifiedAt; exact .parts

instance (make : FileSystem → Path → FileSystem) : IsTame (temporary make) :=
  ⟨.get_bind fun _ => .set_bind (fun h => h) ⟨.refl _, rfl⟩ (.pure trivial)⟩

instance (v : Value) : IsTame (changeDirectory v) := by
  refine @IsTame.bind _ _ _ _ inferInstance fun path => ⟨.get_bind fun s =>
    .still_bind (ofFile_still _ _) (fun _ => trivial) fun r _ => ?_⟩
  split
  · exact .set (fun h => h) ⟨.refl _, rfl⟩
  · exact .of_ensures (.fail _)

instance (f : FilesFn) : IsTame (runFilesPlain f args) := by
  cases f <;> simp only [runFilesPlain, changeMode, homeDirectory, fileFacts, joinPaths,
    onPath, hashFile, operandPaths, nodeHas, appendText, readTable, tableHeaders, writeTable,
    compress, packInto, packedRoot,
    extract, namesIn, listDirectory, succeeding, reporting] <;> exact .parts

end Package

/-! ## By kind -/

instance (m : Maker) (args : List Value) : IsTame (m.run args) := by
  cases m <;> unfold Maker.run <;> exact .parts

instance (p : Package) (name : String) :
    IsTame (p.member? name) := by unfold Package.member?; exact .parts

end ScriptLang
