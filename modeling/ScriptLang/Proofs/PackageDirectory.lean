import ScriptLang.Command
import ScriptLang.Proofs.PathNames
import ScriptLang.Proofs.TouchedCells

/-!
# The directory of the packages

Installing and removing a package whose name leads one step down changes nothing outside the store:
the directory of the store is made where it is missing, with those above it, and everything else
that is changed is the package's own entry or lies below it. Both go through a few operations on the
file system, each of which has this property when its path lies in the store
(`FileSystem.Confined`).
-/

namespace ScriptLang

open ScriptLang.Action

variable {p q : Path} {path : String}

/-! ## Changes of files -/

namespace FileSystem

variable {fs fs₁ fs₂ : FileSystem} {store : Path} {name : String}

/-- The change from one file system to another in which only directories on the way to the store are
made and only the entry of a package changes, with what is below it. -/
def Confined (store : Path) (name : String) (fs fs' : FileSystem) : Prop :=
  ∀ p, fs'.node? p ≠ fs.node? p →
    (p <+: store ∧ fs.node? p = none ∧ fs'.node? p = some .directory) ∨ store ++ [name] <+: p

namespace Confined

theorem refl (fs : FileSystem) : Confined store name fs fs :=
  fun _ hp => absurd rfl hp

theorem trans (h₁ : Confined store name fs fs₁) (h₂ : Confined store name fs₁ fs₂) :
    Confined store name fs fs₂ := by
  intro p hp
  by_cases hfirst : fs₁.node? p = fs.node? p
  · rw [← hfirst] at hp ⊢
    exact h₂ p hp
  · rcases h₁ p hfirst with ⟨hway, hnone, hmade⟩ | hbelow
    · -- what has been made on the way stays
      by_cases hsecond : fs₂.node? p = fs₁.node? p
      · exact .inl ⟨hway, hnone, hsecond.trans hmade⟩
      · rcases h₂ p hsecond with ⟨-, hnone', -⟩ | hbelow
        · cases hnone'.symm.trans hmade
        · exact .inr hbelow
    · exact .inr hbelow

theorem of_below (hq : store ++ [name] <+: q)
    (h : ∀ p, ¬ q <+: p → fs₁.node? p = fs.node? p) : Confined store name fs fs₁ := by
  intro p hp
  by_cases hbelow : q <+: p
  · exact .inr (hq.trans hbelow)
  · exact absurd (h p hbelow) hp

theorem remove (hq : store ++ [name] <+: q) : Confined store name fs (fs.remove q) :=
  of_below hq fun _ hp => node?_remove hp fs

theorem clear (hq : store ++ [name] <+: q) : Confined store name fs (fs.clear q) :=
  of_below hq fun _ hp => node?_clear hp fs

theorem put (hne : q ≠ []) (hq : store ++ [name] <+: q) (n : FileNode) :
    Confined store name fs (fs.put q n) := by
  refine of_below hq fun p hp => ?_
  rw [node?_put fs hne, if_neg]
  rintro rfl
  exact hp (List.prefix_refl _)

theorem make (hq : q <+: store ++ [name]) (hnone : fs.node? q = none) :
    Confined store name fs (fs.put q .directory) := by
  have hne : q ≠ [] := by
    rintro rfl
    cases hnone
  rcases List.prefix_concat_iff.1 hq with rfl | hway
  · exact put hne (List.prefix_refl _) .directory
  · intro p hp
    rw [node?_put fs hne] at hp ⊢
    split at hp
    · next hpq =>
      subst hpq
      exact .inl ⟨hway, hnone, if_pos rfl⟩
    · exact absurd rfl hp

end Confined

end FileSystem

open FileSystem

/-! ## Routines -/

/-- Routines that stay in the store of one user. -/
def inStore (home : Path) (name : String) : Policy Halt Setting where
  inv s := s.home = home
  rel s s' := Confined (home ++ [".zenpkgs"]) name s.files s'.files
  halts _ := True
  refl s := .refl s.files
  trans := .trans

/-- A path from the root leads down by its names. -/
structure Descends (path : String) (p : Path) : Prop where
  rooted : Rooted path
  names : FileSystem.names path = p
  proper : ∀ name ∈ p, Proper name

theorem Descends.resolve {cwd : Path} {fs : FileSystem} (h : Descends path p)
    (hq : fs.resolve cwd path = .ok q) : q = p := by
  rw [resolve_eq_names h.rooted (h.names ▸ h.proper) hq, h.names]

theorem Descends.snoc {name : String} (h : Descends path p) (hname : Proper name) :
    Descends (path ++ "/" ++ name) (p ++ [name]) where
  rooted := (h.rooted.append "/").append name
  names := by rw [names_append_name path hname, h.names]
  proper := by
    intro n hn
    rcases List.mem_append.1 hn with hn | hn
    · exact h.proper n hn
    · rwa [List.mem_singleton.1 hn]

theorem endsWith_slash (hend : path.toList.getLast? ≠ some '/') : path.endsWith "/" = false := by
  rw [Bool.eq_false_iff, Ne, String.endsWith, String.Slice.endsWith_string_iff]
  rintro ⟨rest, hrest⟩
  have hlast := congrArg List.getLast? hrest
  exact hend (by simpa using hlast.symm)

/-- A path that does not end in a slash is joined to a name by one. -/
theorem Descends.join_eq {name : String} (h : Descends path p)
    (hend : path.toList.getLast? ≠ some '/') (hname : Proper name) :
    PathText.join path name = path ++ "/" ++ name := by
  have hrelative : ¬ name.startsWith "/" = true := by
    rw [String.startsWith_string_iff]
    rintro ⟨rest, hrest⟩
    exact hname.no_slash (by simp [← hrest])
  have hempty := h.rooted.not_isEmpty
  rw [PathText.join, if_neg hrelative, if_neg (by simp [hempty, endsWith_slash hend])]

theorem getLast?_append_name (path : String) {name : String} (h : Proper name) :
    (path ++ "/" ++ name).toList.getLast? ≠ some '/' := by
  have hne : name.toList ≠ [] := by simpa using h.ne_empty
  rw [String.toList_append, List.getLast?_append_of_ne_nil _ hne]
  exact fun hlast => h.no_slash (List.mem_of_getLast? hlast)

theorem Descends.text (h : ∀ name ∈ p, Proper name) : Descends p.text p :=
  ⟨rooted_text p, names_text h, h⟩

theorem Descends.split (h : Descends path p) (hne : (PathText.split path).1 ≠ "") :
    ∃ q, q <+: p ∧ Descends (PathText.split path).1 q := by
  have hway : FileSystem.names (PathText.split path).1 <+: p := h.names ▸ (names_split path).2
  exact ⟨_, hway, h.rooted.split hne, rfl, fun name hn => h.proper name (hway.subset hn)⟩

/-- And so does the directory part of that one, which is taken after a slash at the end. -/
theorem Descends.above {head tail : String} (h : Descends path p)
    (hsplit : (if (PathText.split path).2.isEmpty then PathText.split (PathText.split path).1
      else PathText.split path) = (head, tail)) (hne : head ≠ "") : ∃ q, q <+: p ∧
      Descends head q := by
  split at hsplit
  · have hfirst : (PathText.split path).1 ≠ "" := by
      intro hempty
      have hway := (names_split (PathText.split path).1).1
      rw [hsplit, hempty] at hway
      exact hne (by simpa using List.prefix_nil.1 hway)
    obtain ⟨q, hq, hdown⟩ := h.split hfirst
    obtain ⟨r, hr, hdown'⟩ := hdown.split (by rwa [hsplit])
    rw [hsplit] at hdown'
    exact ⟨r, hr.trans hq, hdown'⟩
  · obtain ⟨q, hq, hdown⟩ := h.split (by rwa [hsplit])
    rw [hsplit] at hdown
    exact ⟨q, hq, hdown⟩

section

variable {home : Path} {name : String}

theorem changeFiles_stays {op : FileSystem → Path → Except FileError FileSystem}
    (hop : ∀ fs cwd fs', op fs cwd = .ok fs' → Confined (home ++ [".zenpkgs"]) name fs fs') :
    (inStore home name).Ensures (changeFiles path op) fun _ => True := by
  refine ⟨fun s hs => ?_⟩
  have hrun : changeFiles path op s =
      (do set { s with files := ← ofFile path (op s.files s.cwd) } : Routine Unit) s := rfl
  rw [hrun]
  cases hresult : op s.files s.cwd with
  | error e => exact ⟨hs, (inStore home name).refl s, trivial⟩
  | ok fs => exact ⟨hs, hop _ _ _ hresult, trivial⟩

theorem makeLast_stays (h : Descends path p) (hp : p <+: home ++ [".zenpkgs"] ++ [name]) :
    (inStore home name).Ensures (makeLast path) fun _ => True := by
  have hmake : (inStore home name).Ensures
      (changeFiles path fun fs cwd => fs.makeDirectory cwd path) fun _ => True := by
    refine changeFiles_stays fun fs cwd fs' hmade => ?_
    obtain ⟨q, hq, hnone, rfl⟩ := makeDirectory_ok hmade
    rw [h.resolve hq] at hnone ⊢
    exact .make hp hnone
  have hnull : (inStore home name).Ensures
      (valueFault "embedded null byte" : Routine Unit) fun _ => True := .throw trivial
  refine Policy.Ensures.get.bind fun w _ => ?_
  exact .ite (hnull.seq <| .ite (.pure trivial) hmake) (.ite (.pure trivial) hmake)

theorem makeDirectoriesUpTo_stays (h : Descends path p)
    (hp : p <+: home ++ [".zenpkgs"] ++ [name]) (n : Nat) :
    (inStore home name).Ensures (makeDirectoriesUpTo n path) fun _ => True := by
  induction n generalizing path p with
  | zero => exact .pure trivial
  | succ n ih =>
    rw [makeDirectoriesUpTo]
    rcases hfirst : PathText.split path with ⟨first, last⟩
    dsimp only
    rcases hsplit :
      (if last.isEmpty = true then PathText.split first else (first, last)) with ⟨head, tail⟩
    have hrest (above : Bool) : (inStore home name).Ensures
        (if (above && tail == ".") = true then pure () else makeLast path) fun _ => True :=
      .ite (.pure trivial) (makeLast_stays h hp)
    refine Policy.Ensures.get.bind fun s _ => ?_
    dsimp only
    split
    · next habove =>
      have hne : head ≠ "" := by
        rintro rfl
        cases habove
      obtain ⟨q, hq, hdown⟩ := h.above (by rwa [hfirst]) hne
      exact (ih hdown (hq.trans hp)).seq <| hrest _
    · exact hrest _

theorem makeDirectories_stays (h : Descends path p) (hp : p <+: home ++ [".zenpkgs"] ++ [name]) :
    (inStore home name).Ensures (makeDirectories path) fun _ => True :=
  makeDirectoriesUpTo_stays h hp _

theorem removeTree_stays (h : Descends path (home ++ [".zenpkgs"] ++ [name])) :
    (inStore home name).Ensures (removeTree path) fun _ => True := by
  have hdirectory : (inStore home name).Ensures
      (changeFiles path fun fs cwd => fs.removeDirectory cwd path) fun _ => True := by
    refine changeFiles_stays fun fs cwd fs' hremoved => ?_
    obtain ⟨q, hq, rfl⟩ := removeDirectory_ok hremoved
    rw [h.resolve hq]
    exact .remove (List.prefix_refl _)
  refine ⟨fun s hs => ?_⟩
  cases hfind : s.files.find s.cwd path with
  | error e =>
    have hrun : removeTree path s = .error (.fault (e.fault path)) s := by
      refine (bind_ok rfl).trans (bind_error ?_)
      rw [hfind]
      rfl
    rw [hrun]
    exact ⟨hs, (inStore home name).refl s, trivial⟩
  | ok found =>
    obtain ⟨p, n⟩ := found
    have hfound : ofFile path (s.files.find s.cwd path) s = .ok (p, n) s := by
      rw [hfind]
      rfl
    have hp := h.resolve (resolve_of_find hfind)
    subst hp
    cases n with
    | file content time =>
      have hrun : removeTree path s = .error (.fault (FileError.notDirectory.fault path)) s :=
        (bind_ok rfl).trans ((bind_ok hfound).trans rfl)
      rw [hrun]
      exact ⟨hs, (inStore home name).refl s, trivial⟩
    | directory =>
      let s₁ := { s with files := s.files.clear (home ++ [".zenpkgs"] ++ [name]) }
      have hrun : removeTree path s =
          changeFiles path (fun fs cwd => fs.removeDirectory cwd path) s₁ :=
        (bind_ok rfl).trans ((bind_ok hfound).trans (bind_ok rfl))
      have hclear : (inStore home name).rel s s₁ := Confined.clear (List.prefix_refl _)
      rw [hrun]
      exact (hdirectory.ends s₁ hs).after hclear

theorem writeText_stays (h : Descends path p)
    (hp : home ++ [".zenpkgs"] ++ [name] <+: p) (text : String) :
    (inStore home name).Ensures (writeText path text) fun _ => True := by
  refine ⟨fun s hs => ?_⟩
  by_cases hopen : ∃ q, s.files.Opens s.cwd path q
  · obtain ⟨q, hopen⟩ := hopen
    have hq := h.resolve hopen.resolves
    rw [writeText_ok hopen]
    exact ⟨hs, .put hopen.ne_nil (hq ▸ hp) _, trivial⟩
  · obtain ⟨f, hf⟩ := writeText_error (not_exists.1 hopen) text
    rw [hf]
    exact ⟨hs, (inStore home name).refl s, trivial⟩

theorem writeJson_stays (h : Descends path p)
    (hp : home ++ [".zenpkgs"] ++ [name] <+: p) (v : Value) :
    (inStore home name).Ensures (writeJson (.text path) v) fun _ => True := by
  have hpath : (inStore home name).Ensures (openPath (.text path)) (· = path) := by
    rw [openPath]
    exact .ite (.throw trivial) (.pure rfl)
  refine hpath.bind fun path' heq => ?_
  subst heq
  have hpart : Still (jsonPart (.indented 2) v) := by
    refine heap_still.bind fun s => ?_
    split
    · exact .done _
    · exact .done _
  refine (writeText_stays h hp "").bind fun _ _ => ?_
  refine (Policy.Ensures.of_still hpart fun _ => trivial).bind fun part _ => ?_
  refine (writeText_stays h hp part.1).bind fun _ _ => ?_
  split
  · exact .throw trivial
  · exact .pure trivial

theorem change_stays {f : Setting → Setting} (hfiles : ∀ s, (f s).files = s.files)
    (hhome : ∀ s, (f s).home = s.home) : (inStore home name).Ensures (modify f) fun _ => True := by
  refine .change fun s hs => ⟨(hhome s).trans hs, ?_⟩
  show Confined _ name s.files (f s).files
  rw [hfiles]
  exact .refl _

theorem printLine_stays (text : String) :
    (inStore home name).Ensures (printLine text) fun _ => True :=
  change_stays (fun _ => rfl) fun _ => rfl

theorem objectOf_stays (fields : List (String × Value)) :
    (inStore home name).Ensures (objectOf fields) fun _ => True := by
  have halloc (c : Cell) : (inStore home name).Ensures (alloc c) fun _ => True :=
    .changeGet fun s hs => ⟨hs, Confined.refl s.files, trivial⟩
  exact (halloc _).map fun _ _ => trivial

theorem pathPresent_still (path : String) : Still (pathPresent (.text path)) :=
  .get_bind fun _ => .get_bind fun _ => .done _

/-! ## The commands -/

theorem directory_stays :
    (inStore home name).Ensures PackageStore.directory (· = home.text ++ "/.zenpkgs") := by
  refine Policy.Ensures.get.bind fun s hs => .pure ?_
  rw [show s.home = home from hs]

theorem pathOf_stays : (inStore home name).Ensures (PackageStore.pathOf name)
    (· = PathText.join (home.text ++ "/.zenpkgs") name) := by
  refine directory_stays.bind fun store heq => .pure ?_
  rw [heq]

section

variable (hhome : ∀ n ∈ home, Proper n) (hname : Proper name)

include hhome

theorem directory_descends : Descends (home.text ++ "/.zenpkgs") (home ++ [".zenpkgs"]) := by
  have hstore : Proper ".zenpkgs" := ⟨by simp, by simp, by simp, by simp⟩
  have htext : home.text ++ "/.zenpkgs" = home.text ++ "/" ++ ".zenpkgs" := by
    rw [String.append_assoc]
    rfl
  rw [htext]
  exact (Descends.text hhome).snoc hstore

include hname

theorem package_path :
    PathText.join (home.text ++ "/.zenpkgs") name = home.text ++ "/.zenpkgs" ++ "/" ++ name :=
  (directory_descends hhome).join_eq (by simp) hname

theorem package_descends :
    Descends (PathText.join (home.text ++ "/.zenpkgs") name) (home ++ [".zenpkgs"] ++ [name]) := by
  rw [package_path hhome hname]
  exact (directory_descends hhome).snoc hname

theorem description_path :
    PathText.join (PathText.join (home.text ++ "/.zenpkgs") name) "package.json" =
      PathText.join (home.text ++ "/.zenpkgs") name ++ "/" ++ "package.json" := by
  have hfile : Proper "package.json" := ⟨by simp, by simp, by simp, by simp⟩
  refine (package_descends hhome hname).join_eq ?_ hfile
  rw [package_path hhome hname]
  exact getLast?_append_name _ hname

theorem description_descends :
    Descends (PathText.join (PathText.join (home.text ++ "/.zenpkgs") name) "package.json")
      (home ++ [".zenpkgs"] ++ [name] ++ ["package.json"]) := by
  have hfile : Proper "package.json" := ⟨by simp, by simp, by simp, by simp⟩
  rw [description_path hhome hname]
  exact (package_descends hhome hname).snoc hfile

theorem install_stays : (inStore home name).Ensures (PackageStore.install name) fun _ => True := by
  have hstore := directory_descends hhome
  have hpackage := package_descends hhome hname
  refine directory_stays.bind fun store heq => ?_
  subst heq
  refine (makeDirectories_stays hstore (List.prefix_append _ _)).bind fun _ _ => ?_
  refine pathOf_stays.bind fun path heq => ?_
  subst heq
  refine (Policy.Ensures.of_still (pathPresent_still _) fun _ => trivial).bind fun known _ => ?_
  refine .ite (printLine_stays _) ?_
  refine (makeDirectories_stays hpackage (List.prefix_refl _)).bind fun _ _ => ?_
  refine (objectOf_stays _).bind fun description _ => ?_
  exact (writeJson_stays (description_descends hhome hname) (List.prefix_append _ _) _).seq <|
    printLine_stays _

theorem remove_stays : (inStore home name).Ensures (PackageStore.remove name) fun _ => True := by
  refine pathOf_stays.bind fun path heq => ?_
  subst heq
  refine (Policy.Ensures.of_still (pathPresent_still _) fun _ => trivial).bind fun known _ => ?_
  refine .ite ?_ (printLine_stays _)
  exact (removeTree_stays (package_descends hhome hname)).seq <| printLine_stays _

end

end

/-- The words of a command line are kept, and what they ask for is done. -/
theorem Command.final_performWords {words : List String} {command : Command}
    (h : Command.ofWords words = .ok command) (w : World) :
    (Command.performWords words).final w = command.perform.final { w with arguments := words } := by
  have hset : (modify fun w => { w with arguments := words } : Action Unit) w =
      .ok () { w with arguments := words } := rfl
  rw [Command.performWords, Action.final_of_ok hset, h]

theorem confined_of_stays {w : World} {name : String} {words : List String} {command : Command}
    {x : Routine Unit} (hwords : Command.ofWords words = .ok command)
    (hcommand : command.perform = liftM x) (hx : (inStore w.home name).Ensures x fun _ => True) :
    Confined (w.home ++ [".zenpkgs"]) name w.files
      ((Command.performWords words).final w).files := by
  rw [Command.final_performWords hwords, hcommand]
  exact hx.final_lift (w := { w with arguments := words }) rfl

/-- Installing and removing a package whose name leads one step down stay in the store, however they
end: the directory of the store is made where it is missing, with those above it, and everything
else that changes is the entry of that name or lies below it. Where the user's own directory is
there, nothing above the store is made. -/
theorem package_commands_stay_in_store (w : World) (word name : String) (rest : List String)
    (hword : word = "install" ∨ word = "remove") (hhome : ∀ n ∈ w.home, Proper n)
    (hname : Proper name) : let fs := ((Command.performWords (word :: name :: rest)).final w).files
    Confined (w.home ++ [".zenpkgs"]) name w.files fs ∧
      ((∀ q, q <+: w.home → w.files.node? q ≠ none) → ∀ p, fs.node? p ≠ w.files.node? p →
        p = w.home ++ [".zenpkgs"] ∨ w.home ++ [".zenpkgs"] ++ [name] <+: p) := by
  intro fs
  have hconfined : Confined (w.home ++ [".zenpkgs"]) name w.files fs := by
    rcases hword with rfl | rfl
    · exact confined_of_stays rfl rfl (install_stays hhome hname)
    · exact confined_of_stays rfl rfl (remove_stays hhome hname)
  refine ⟨hconfined, fun hthere p hp => ?_⟩
  rcases hconfined p hp with ⟨hway, hnone, -⟩ | hbelow
  · rcases List.prefix_concat_iff.1 hway with rfl | habove
    · exact .inl rfl
    · exact absurd hnone (hthere p habove)
  · exact .inr hbelow

/-- A user's own directory with another directory and the store, where one package is installed. -/
def smallHome : World where
  home := ["home"]
  files :=
    { nodes := [(["home"], .directory), (["home", "x"], .directory),
        (["home", ".zenpkgs"], .directory), (["home", ".zenpkgs", "b"], .directory)] }

theorem smallHome_stays :
    (((Command.performWords ["install", "a"]).final smallHome).files.node?
      ["home", ".zenpkgs", "a"]).isSome = true ∧
    Confined ["home", ".zenpkgs"] "a" smallHome.files
      ((Command.performWords ["install", "a"]).final smallHome).files := by
  have hhome : ∀ n ∈ smallHome.home, Proper n := by
    intro n hn
    rw [List.mem_singleton.1 hn]
    exact ⟨by simp, by simp, by simp, by simp⟩
  have hname : Proper "a" := ⟨by simp, by simp, by simp, by simp⟩
  refine ⟨by decide +kernel, ?_⟩
  exact (package_commands_stay_in_store smallHome "install" "a" [] (.inl rfl) hhome hname).1

/-- Removing a package named by a dot removes all packages, and one named by two dots all that the
user has. -/
theorem smallHome_emptied :
    (smallHome.files.node? ["home", ".zenpkgs", "b"]).isSome = true ∧
    (((Command.performWords ["remove", "."]).final smallHome).files.node?
      ["home", ".zenpkgs", "b"]).isSome = false ∧
    (smallHome.files.node? ["home", "x"]).isSome = true ∧
    (((Command.performWords ["remove", ".."]).final smallHome).files.node? ["home", "x"]).isSome =
      false := by
  decide +kernel

end ScriptLang
