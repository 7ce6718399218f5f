import ScriptLang.Proofs.FileContents
import ScriptLang.Proofs.Splitting

/-!
# Names in paths

A path text stands for the place that its names lead to. When it starts at the root and none of its
names stands for another directory, that place is the list of its names (`resolve_eq_names`).
Cutting a path after its last slash leaves some of its first names (`names_split`). The operations
on the file system change it at the place that a text stands for, or below.
-/

namespace ScriptLang

namespace FileSystem

/-! ## Names in a text -/

/-- The names in the characters of a path. -/
def namesIn (cs : List Char) : List (List Char) :=
  (cs.splitOn '/').filter (· ≠ [])

theorem names_eq (path : String) : names path = (namesIn path.toList).map String.ofList := by
  have hslash : "/" = String.ofList ['/'] := rfl
  have hempty : (fun s : String => decide (s ≠ "")) ∘ String.ofList = fun cs =>
      decide (cs ≠ []) := by
    funext cs
    simp
  rw [names, hslash, Text.split_char, List.filter_map, hempty]
  rfl

@[simp]
theorem namesIn_nil : namesIn [] = [] :=
  rfl

theorem namesIn_append (a b : List Char) : namesIn (a ++ '/' :: b) = namesIn a ++ namesIn b := by
  rw [namesIn, Text.splitOn_append, List.filter_append]
  rfl

theorem namesIn_cons (b : List Char) : namesIn ('/' :: b) = namesIn b :=
  namesIn_append [] b

theorem namesIn_of_not_mem {cs : List Char} (hslash : '/' ∉ cs) (hne : cs ≠ []) :
    namesIn cs = [cs] := by
  rw [namesIn, Text.splitOn_of_not_mem hslash]
  simp [hne]

/-- A name leads one step down: it is not empty, has no slash, and is neither the dot of a directory
itself nor the two dots of the one above. -/
structure Proper (name : String) : Prop where
  ne_empty : name ≠ ""
  no_slash : '/' ∉ name.toList
  ne_dot : name ≠ "."
  ne_dots : name ≠ ".."

theorem Proper.namesIn {name : String} (h : Proper name) : namesIn name.toList = [name.toList] :=
  namesIn_of_not_mem h.no_slash (by simpa using h.ne_empty)

theorem names_append_name (path : String) {name : String} (h : Proper name) :
    names (path ++ "/" ++ name) = names path ++ [name] := by
  have htext : (path ++ "/" ++ name).toList = path.toList ++ '/' :: name.toList := by simp
  rw [names_eq, htext, namesIn_append, h.namesIn, List.map_append, ← names_eq]
  simp

theorem names_text {p : Path} (h : ∀ name ∈ p, Proper name) : names p.text = p := by
  have htext : p.text.toList = '/' :: (['/'].intercalate (p.map String.toList)) := by
    simp [Path.text, String.toList_intercalate]
  rw [names_eq, htext, namesIn_cons]
  by_cases hp : p = []
  · subst hp
    rfl
  · have hslash : ∀ cs ∈ p.map String.toList, '/' ∉ cs := by
      intro cs hcs
      obtain ⟨name, hname, rfl⟩ := List.mem_map.1 hcs
      exact (h name hname).no_slash
    have hkept : ∀ cs ∈ p.map String.toList, decide (cs ≠ []) = true := by
      intro cs hcs
      obtain ⟨name, hname, rfl⟩ := List.mem_map.1 hcs
      simpa using (h name hname).ne_empty
    rw [FileSystem.namesIn, List.splitOn_intercalate '/' hslash (by simpa using hp),
      List.filter_eq_self.2 hkept]
    simp

/-! ## The directory part -/

theorem cutLast_head (cs : List Char) :
    (PathText.cutLast cs).1 = [] ∨ ∃ a b, (PathText.cutLast cs).1 = a ++ ['/'] ∧
    cs = a ++ '/' :: b := by
  have hcs : cs = (cs.reverse.dropWhile (· ≠ '/')).reverse ++
      (cs.reverse.takeWhile (· ≠ '/')).reverse := by
    rw [← List.reverse_append, List.takeWhile_append_dropWhile, List.reverse_reverse]
  have hhead : (PathText.cutLast cs).1 = (cs.reverse.dropWhile (· ≠ '/')).reverse := by
    have htake {a b : List Char} (h : cs = a ++ b) : cs.take (cs.length - b.length) = a := by
      subst h
      simp
    exact htake hcs
  rw [hhead]
  cases hdrop : cs.reverse.dropWhile (· ≠ '/') with
  | nil => exact .inl rfl
  | cons c rest =>
    have hc : c = '/' := by
      have hfirst := List.head?_dropWhile_not (· ≠ '/') cs.reverse
      rw [hdrop] at hfirst
      simpa using hfirst
    subst hc
    refine .inr ⟨rest.reverse, (cs.reverse.takeWhile (· ≠ '/')).reverse, by simp, ?_⟩
    conv_lhs => rw [hcs, hdrop]
    simp

theorem trimHead_slash (a : List Char) :
    PathText.trimHead (a ++ ['/']) = a ++ ['/'] ∨
      ∃ b, a ++ ['/'] = PathText.trimHead (a ++ ['/']) ++ '/' :: b := by
  rw [PathText.trimHead]
  split
  · exact .inl rfl
  · right
    -- what is dropped at the end are slashes only, and the first character from there is one
    have hslashes : ∀ c ∈ a.reverse.takeWhile (· == '/'), c = '/' := fun c hc => by
      simpa using List.mem_takeWhile_imp hc
    have hdropped : (a ++ ['/']).reverse.takeWhile (· == '/') =
        List.replicate ((a.reverse.takeWhile (· == '/')).length + 1) '/' := by
      rw [List.replicate_succ, ← List.eq_replicate_of_mem hslashes]
      simp
    refine ⟨List.replicate (a.reverse.takeWhile (· == '/')).length '/', ?_⟩
    rw [← List.replicate_succ, ← List.reverse_replicate, ← hdropped, ← List.reverse_append,
      List.takeWhile_append_dropWhile, List.reverse_reverse]

/-- The directory part of a path is how it starts, and has some of its first names. -/
theorem names_split (path : String) :
    (PathText.split path).1.toList <+: path.toList ∧
      names (PathText.split path).1 <+: names path := by
  have hhead : (PathText.split path).1.toList =
      PathText.trimHead (PathText.cutLast path.toList).1 := String.toList_ofList
  rw [names_eq, names_eq, hhead]
  rcases cutLast_head path.toList with hcut | ⟨a, b, hcut, hpath⟩
  · rw [hcut]
    exact ⟨List.nil_prefix, List.nil_prefix⟩
  · rw [hcut, hpath]
    rcases trimHead_slash a with htrim | ⟨c, htrim⟩
    · rw [htrim, namesIn_append, namesIn_append, namesIn_nil, List.append_nil]
      refine ⟨⟨b, by simp⟩, ?_⟩
      rw [List.map_append]
      exact List.prefix_append _ _
    · have hrest : a ++ '/' :: b = PathText.trimHead (a ++ ['/']) ++ '/' :: (c ++ b) := by
        have := congrArg (· ++ b) htrim
        simpa using this
      rw [hrest, namesIn_append, List.map_append]
      exact ⟨List.prefix_append _ _, List.prefix_append _ _⟩

/-! ## Places -/

/-- A path text starts at the root. -/
def Rooted (path : String) : Prop :=
  path.startsWith "/" = true

theorem rooted_iff {path : String} : Rooted path ↔ ['/'] <+: path.toList :=
  String.startsWith_string_iff

theorem Rooted.not_isEmpty {path : String} (h : Rooted path) : ¬ path.isEmpty = true := by
  intro hpath
  have hrooted := rooted_iff.1 h
  rw [String.isEmpty_iff.1 hpath] at hrooted
  exact absurd (List.prefix_nil.1 hrooted) (by simp)

theorem Rooted.append {path : String} (h : Rooted path) (next : String) :
    Rooted (path ++ next) := by
  rw [rooted_iff] at h ⊢
  rw [String.toList_append]
  exact h.trans (List.prefix_append _ _)

theorem rooted_text (p : Path) : Rooted p.text := by
  rw [rooted_iff, Path.text, String.toList_append]
  exact List.prefix_append _ _

/-- The directory part of a path from the root starts at the root too, where there is one. -/
theorem Rooted.split {path : String} (h : Rooted path) (hne : (PathText.split path).1 ≠ "") :
    Rooted (PathText.split path).1 := by
  rw [rooted_iff] at h ⊢
  refine List.prefix_of_prefix_length_le h (names_split path).1 ?_
  rw [List.length_singleton, Nat.one_le_iff_ne_zero, Ne, List.length_eq_zero_iff]
  simpa using hne

section

variable {fs fs' : FileSystem} {cwd p q : Path} {path : String} {n : FileNode}

theorem walk_proper {ns : List String} (hproper : ∀ name ∈ ns, Proper name)
    (h : fs.walk p ns = .ok q) : q = p ++ ns := by
  induction ns generalizing p with
  | nil =>
    cases h
    simp
  | cons name ns ih =>
    rw [List.forall_mem_cons] at hproper
    rw [walk] at h
    split at h
    · cases h
    · cases h
    · have hdown : ¬ (name = "" || name = ".") = true := by
        simp [hproper.1.ne_empty, hproper.1.ne_dot]
      rw [if_neg hdown, if_neg hproper.1.ne_dots] at h
      rw [ih hproper.2 h, List.append_assoc]
      rfl

theorem resolve_eq_names (hrooted : Rooted path) (hproper : ∀ name ∈ names path, Proper name)
    (h : fs.resolve cwd path = .ok p) : p = names path := by
  rw [resolve] at h
  split at h
  · cases h
  · dsimp only at h
    rw [if_pos (show path.startsWith "/" = true from hrooted)] at h
    split at h
    · cases h
    · next q hwalk =>
      have hq : q = names path := walk_proper hproper hwalk
      split at h
      · split at h
        · cases h
        · cases h
          exact hq
      · cases h
        exact hq

theorem resolve_of_find (h : fs.find cwd path = .ok (p, n)) : fs.resolve cwd path = .ok p := by
  rw [find] at h
  split at h
  · cases h
  · next q hresolve =>
    split at h
    · cases h
      exact hresolve
    · cases h

theorem makeDirectory_ok (h : fs.makeDirectory cwd path = .ok fs') :
    ∃ p, fs.resolve cwd path = .ok p ∧ fs.node? p = none ∧ fs' = fs.put p .directory := by
  rw [makeDirectory] at h
  split at h
  · cases h
  · next p hresolve =>
    split at h
    · cases h
    · next hnode =>
      split at h
      · cases h
        exact ⟨p, hresolve, hnode, rfl⟩
      · cases h
      · cases h

theorem removeDirectory_ok (h : fs.removeDirectory cwd path = .ok fs') :
    ∃ p, fs.resolve cwd path = .ok p ∧ fs' = fs.remove p := by
  rw [removeDirectory] at h
  split at h
  · cases h
  · cases h
  · next p hfind =>
    split at h
    · cases h
    · cases h
    · split at h
      · cases h
        exact ⟨p, resolve_of_find hfind, rfl⟩
      · cases h

/-! ## What is changed -/

theorem lookup_filter {f : Path → Bool} (hq : f q = true) (nodes : List (Path × FileNode)) :
    (nodes.filter fun e => f e.1).lookup q = nodes.lookup q := by
  induction nodes with
  | nil => rfl
  | cons e nodes ih =>
    obtain ⟨r, m⟩ := e
    rw [List.lookup_cons]
    by_cases hr : q = r
    · subst hr
      have hkept : ((q, m) :: nodes).filter (fun e => f e.1) = (q, m) :: nodes.filter
          fun e => f e.1 :=
        List.filter_cons_of_pos hq
      rw [hkept, List.lookup_cons, beq_self_eq_true]
    · have hother : (q == r) = false := by simpa using hr
      rw [hother, List.filter_cons]
      split
      · rw [List.lookup_cons, hother, ih]
      · exact ih

theorem node?_clear (hq : ¬ p <+: q) (fs : FileSystem) : (fs.clear p).node? q = fs.node? q := by
  have hother : p.isPrefixOf q = false := by rwa [Bool.eq_false_iff, Ne, List.isPrefixOf_iff_prefix]
  have hkept : (!(p.isPrefixOf q && q != p)) = true := by
    rw [hother, Bool.false_and, Bool.not_false]
  rw [node?, node?, clear, lookup_filter (f := fun r => !(p.isPrefixOf r && r != p)) hkept]

theorem node?_remove (hq : ¬ p <+: q) (fs : FileSystem) : (fs.remove p).node? q = fs.node? q := by
  have hother : p.isPrefixOf q = false := by rwa [Bool.eq_false_iff, Ne, List.isPrefixOf_iff_prefix]
  have hkept : (!p.isPrefixOf q) = true := by rw [hother, Bool.not_false]
  rw [node?, node?, remove, lookup_filter (f := fun r => !p.isPrefixOf r) hkept]

end

end FileSystem

end ScriptLang
