import ScriptLang.Proofs.Tables

/-!
# Templates

A template is a sequence of parts: texts that stand for themselves, and names in double braces.
Filling it in goes through the data key by key and replaces text in what the keys before left, so
that in general a value can bring in a name that a later key replaces. Where the names in the values
are not keys of the data, all names are replaced at once, each by its value and nothing else, and
the order of the keys does not matter.
-/

namespace ScriptLang.Text

variable {word new s : List Char}

/-! ## Replacing from the front -/

theorem afterPrefix_append (word rest : List Char) :
    afterPrefix word (word ++ rest) = some rest := by
  induction word with
  | nil => rfl
  | cons c word ih => simpa [afterPrefix] using ih

theorem length_of_afterPrefix {rest : List Char} (h : afterPrefix word s = some rest) :
    s.length = word.length + rest.length := by
  fun_induction afterPrefix word s with
  | case1 s => cases h; simp
  | case2 => cases h
  | case3 c word s ih => simp [ih h]; omega
  | case4 => cases h

theorem length_of_cut (hw : word ≠ []) {r : List Char × List Char} (h : cut word s = some r) :
    r.2.length < s.length := by
  have hpos : 0 < word.length := List.length_pos_iff.2 hw
  induction s generalizing r with
  | nil => simp [cut, hw] at h
  | cons c s ih =>
    rw [cut] at h
    split at h
    · next hp =>
        have hlength := length_of_afterPrefix hp
        cases h
        simp only
        omega
    · obtain ⟨r, hr, h⟩ := Option.map_eq_some_iff.1 h
      cases h
      exact (ih hr).trans (Nat.lt_succ_self _)

theorem splitAtMost_congr (hw : word ≠ []) {n m : Nat} (hn : s.length < n) (hm : s.length < m) :
    splitAtMost word n s = splitAtMost word m s := by
  induction n generalizing s m with
  | zero => omega
  | succ n ih =>
    obtain ⟨m, rfl⟩ := Nat.exists_eq_succ_of_ne_zero (Nat.ne_zero_of_lt hm)
    rw [splitAtMost, splitAtMost]
    cases hc : cut word s with
    | none => rfl
    | some r =>
      have hlength := length_of_cut hw hc
      exact congrArg (r.1 :: ·) (ih (by omega) (by omega))

theorem replace_of_not_cut (hw : word ≠ []) (h : cut word s = none) : replace word new s = s := by
  simp [replace, hw, splitOn, splitAtMost, h, intercalate]

theorem replace_of_cut (hw : word ≠ []) {r : List Char × List Char} (h : cut word s = some r) :
    replace word new s = r.1 ++ new ++ replace word new r.2 := by
  have hsplit : splitOn word s = r.1 :: splitOn word r.2 := by
    have hstep : splitOn word s = r.1 :: splitAtMost word s.length r.2 := by
      simp only [splitOn, splitAtMost, h]
    rw [hstep, splitAtMost_congr hw (length_of_cut hw h) (Nat.lt_succ_self _)]
    rfl
  have hne : splitOn word r.2 ≠ [] := by
    rw [splitOn, splitAtMost]
    split <;> simp
  obtain ⟨p, ps, hps⟩ := List.exists_cons_of_ne_nil hne
  simp [replace, hw, hsplit, hps, intercalate]

theorem replace_nil (hw : word ≠ []) : replace word new [] = [] :=
  replace_of_not_cut hw (by simp [cut, hw])

theorem replace_word (hw : word ≠ []) (rest : List Char) :
    replace word new (word ++ rest) = new ++ replace word new rest := by
  obtain ⟨c, w, rfl⟩ := List.exists_cons_of_ne_nil hw
  have hcut : cut (c :: w) ((c :: w) ++ rest) = some ([], rest) := by
    rw [List.cons_append, cut, ← List.cons_append, afterPrefix_append]
  simpa using replace_of_cut hw hcut

theorem replace_cons (hw : word ≠ []) {c : Char} (h : afterPrefix word (c :: s) = none) :
    replace word new (c :: s) = c :: replace word new s := by
  have hcut : cut word (c :: s) = (cut word s).map fun r => (c :: r.1, r.2) := by
    rw [cut, h]
  cases hs : cut word s with
  | none => rw [replace_of_not_cut hw hs, replace_of_not_cut hw (by rw [hcut, hs]; rfl)]
  | some r => rw [replace_of_cut hw hs, replace_of_cut hw (hcut.trans (congrArg _ hs))]; simp

end ScriptLang.Text

namespace ScriptLang.Package

open ScriptLang.Action

/-! ## Parts -/

/-- A part of a template: a text that stands for itself, or a name in double braces. -/
inductive Part where
  | text (s : String)
  | slot (name : String)

/-- A name in double braces. -/
def placeholder (name : String) : List Char :=
  '{' :: '{' :: (name.toList ++ ['}', '}'])

def NoBraces (name : String) : Prop :=
  '{' ∉ name.toList ∧ '}' ∉ name.toList

/-- Every opening brace is followed by another character: no placeholder begins in the text,
whatever comes after it. -/
def Inert : List Char → Prop
  | [] => True
  | c :: s => (c = '{' → ∃ d t, s = d :: t ∧ d ≠ '{') ∧ Inert s

namespace Part

def chars : Part → List Char
  | .text s => s.toList
  | .slot name => placeholder name

def WellFormed : Part → Prop
  | .text s => Inert s.toList
  | .slot name => NoBraces name

/-- Puts parts in the place of a name. -/
def fill (key : String) (parts : List Part) : Part → List Part
  | .text s => [.text s]
  | .slot name => if name = key then parts else [.slot name]

/-- The text of a part with all names that have a value replaced at once. -/
def filled (fields : List (String × String)) : Part → List Char
  | .text s => s.toList
  | .slot name => ((fields.lookup name).map String.toList).getD (placeholder name)

end Part

/-- A text whose names in double braces are not among the keys. -/
def Settled (keys : List String) (s : String) : Prop :=
  ∃ parts : List Part, (∀ p ∈ parts, p.WellFormed) ∧ s.toList = parts.flatMap Part.chars ∧
    ∀ name, .slot name ∈ parts → name ∉ keys

/-! ## One key -/

section

variable {key : String} {new : List Char} (rest : List Char)

theorem placeholder_ne_nil (key : String) : placeholder key ≠ [] := List.cons_ne_nil _ _

theorem replace_inert {s : List Char} (h : Inert s) :
    Text.replace (placeholder key) new (s ++ rest) = s ++ Text.replace (placeholder key)
      new rest := by
  induction s with
  | nil => rfl
  | cons c s ih =>
    have hnone : Text.afterPrefix (placeholder key) (c :: (s ++ rest)) = none := by
      by_cases hc : c = '{'
      · obtain ⟨d, t, rfl, hd⟩ := h.1 hc
        simp [placeholder, Text.afterPrefix, hd.symm]
      · simp [placeholder, Text.afterPrefix, Ne.symm hc]
    rw [List.cons_append, Text.replace_cons (placeholder_ne_nil key) hnone, ih h.2]
    rfl

theorem inert_of_not_mem {s : List Char} (h : '{' ∉ s) : Inert s := by
  induction s with
  | nil => trivial
  | cons c s ih =>
    simp only [List.mem_cons, not_or] at h
    exact ⟨fun hc => absurd hc.symm h.1, ih h.2⟩

/-- Two names without braces that end in the same place are the same. -/
theorem afterPrefix_name {k n : List Char} (hk : '}' ∉ k) (hn : '}' ∉ n) (hne : n ≠ k) :
    Text.afterPrefix (k ++ ['}', '}']) (n ++ ['}', '}'] ++ rest) = none := by
  induction k generalizing n with
  | nil =>
    obtain ⟨d, n, rfl⟩ := List.exists_cons_of_ne_nil hne
    have hd : '}' ≠ d := fun h => hn (h ▸ List.mem_cons_self)
    simp [Text.afterPrefix, hd]
  | cons c k ih =>
    have hc : c ≠ '}' := fun h => hk (h ▸ List.mem_cons_self)
    cases n with
    | nil => simp [Text.afterPrefix, hc]
    | cons d n =>
      by_cases hcd : c = d
      · have htail := ih (fun h => hk (List.mem_cons_of_mem _ h))
          (fun h => hn (List.mem_cons_of_mem _ h)) fun h => hne (by rw [h, hcd])
        simpa [Text.afterPrefix, hcd] using htail
      · simp [Text.afterPrefix, hcd]

theorem replace_other {name : String} (hk : NoBraces key) (hn : NoBraces name) (hne : name ≠ key) :
    Text.replace (placeholder key) new (placeholder name ++ rest) =
      placeholder name ++ Text.replace (placeholder key) new rest := by
  have hnone : Text.afterPrefix (placeholder key) (placeholder name ++ rest) = none := by
    simpa [placeholder, Text.afterPrefix] using
      afterPrefix_name rest hk.2 hn.2 fun h => hne (String.toList_injective h)
  -- after its first brace the other placeholder is inert: the second one is followed by the name
  have hinert : Inert ('{' :: (name.toList ++ ['}', '}'])) := by
    refine ⟨fun _ => ?_, inert_of_not_mem (by simpa using hn.1)⟩
    cases hname : name.toList with
    | nil => exact ⟨'}', ['}'], rfl, by decide⟩
    | cons d t => exact ⟨d, t ++ ['}', '}'], rfl, fun hd => hn.1 (hname ▸ hd ▸ List.mem_cons_self)⟩
  exact (Text.replace_cons (placeholder_ne_nil key) hnone).trans
    (congrArg _ (replace_inert rest hinert))

/-- Replacing one key puts its parts where its name is and changes nothing else. -/
theorem replace_parts {values : List Part} (hk : NoBraces key) {parts : List Part}
    (h : ∀ p ∈ parts, p.WellFormed) :
    Text.replace (placeholder key) (values.flatMap Part.chars) (parts.flatMap Part.chars) =
      (parts.flatMap (Part.fill key values)).flatMap Part.chars := by
  induction parts with
  | nil => exact Text.replace_nil (placeholder_ne_nil key)
  | cons p parts ih =>
    have hrest := ih fun p hp => h p (List.mem_cons_of_mem _ hp)
    have hp := h p List.mem_cons_self
    rw [List.flatMap_cons, List.flatMap_cons, List.flatMap_append, ← hrest]
    cases p with
    | text s => simpa [Part.fill, Part.chars] using replace_inert _ hp
    | slot name =>
      by_cases hname : name = key
      · subst hname
        simpa [Part.fill, Part.chars] using Text.replace_word (placeholder_ne_nil name) _
      · simpa [Part.fill, Part.chars, hname] using replace_other _ hk hp hname

end

/-! ## All keys -/

theorem Part.fill_wellFormed {key : String} {values : List Part} (hv : ∀ p ∈ values, p.WellFormed)
    {p q : Part} (hp : p.WellFormed) (hq : q ∈ p.fill key values) : q.WellFormed := by
  cases p with
  | text s => exact List.mem_singleton.1 hq ▸ hp
  | slot name =>
    simp only [Part.fill] at hq
    split at hq
    · exact hv q hq
    · exact List.mem_singleton.1 hq ▸ hp

variable {fields : List (String × String)}

theorem Part.filled_eq_chars {p : Part} (h : ∀ name, p = .slot name → name ∉ fields.map Prod.fst) :
    p.filled fields = p.chars := by
  cases p with
  | text s => rfl
  | slot name =>
    have hnone : fields.lookup name = none := by
      rw [List.lookup_eq_none_iff]
      intro f hf
      exact bne_iff_ne.2 fun hname => h name rfl (hname ▸ List.mem_map_of_mem hf)
    simp [Part.filled, hnone, Part.chars]

/-- Filling in the parts that came in the place of a key is filling in the part with the key. -/
theorem Part.filled_fill {key value : String} {values : List Part}
    (hv : value.toList = values.flatMap Part.chars)
    (hsettled : ∀ name, .slot name ∈ values → name ∉ fields.map Prod.fst) (p : Part) :
    (p.fill key values).flatMap (Part.filled fields) = p.filled ((key, value) :: fields) := by
  cases p with
  | text s => simp [Part.fill, Part.filled]
  | slot name =>
    by_cases hname : name = key
    · have hvalues : values.flatMap (Part.filled fields) = values.flatMap Part.chars :=
        List.flatMap_congr fun p hp => Part.filled_eq_chars fun n hn => hsettled n (hn ▸ hp)
      simp [Part.fill, Part.filled, hname, hvalues, hv]
    · simp [Part.fill, Part.filled, hname, List.lookup_cons, beq_false_of_ne hname]

theorem fillTemplate_parts {parts : List Part} {keys : List String}
    (hparts : ∀ p ∈ parts, p.WellFormed) (hkeys : fields.map Prod.fst ⊆ keys)
    (hfields : ∀ f ∈ fields, NoBraces f.1 ∧ Settled keys f.2) :
    fillTemplate (.text (String.ofList (parts.flatMap Part.chars))) fields =
      pure (.text (String.ofList (parts.flatMap (Part.filled fields)))) := by
  induction fields generalizing parts with
  | nil =>
    have hsame : parts.flatMap (Part.filled []) = parts.flatMap Part.chars :=
      List.flatMap_congr fun p _ => Part.filled_eq_chars fun _ _ => List.not_mem_nil
    rw [hsame]
    rfl
  | cons f fields ih =>
    obtain ⟨hkey, values, hvalues, hvalue, hsettled⟩ := hfields f List.mem_cons_self
    have hrest : fields.map Prod.fst ⊆ keys := fun k hk => hkeys (List.mem_cons_of_mem _ hk)
    have hstep : Text.replaceAll ("\x7b\x7b" ++ f.1 ++ "\x7d\x7d") f.2
        (String.ofList (parts.flatMap Part.chars)) =
        String.ofList ((parts.flatMap (Part.fill f.1 values)).flatMap Part.chars) := by
      rw [← replace_parts hkey hparts, ← hvalue, Text.replaceAll, String.toList_ofList]
      simp [placeholder]
    have hfill : (parts.flatMap (Part.fill f.1 values)).flatMap (Part.filled fields) =
        parts.flatMap (Part.filled (f :: fields)) := by
      rw [List.flatMap_assoc]
      exact List.flatMap_congr fun p _ =>
        Part.filled_fill hvalue (fun n hn hmem => hsettled n hn (hrest hmem)) p
    have hwell : ∀ p ∈ parts.flatMap (Part.fill f.1 values), p.WellFormed := by
      intro p hp
      obtain ⟨q, hq, hp⟩ := List.mem_flatMap.1 hp
      exact Part.fill_wellFormed hvalues (hparts q hq) hp
    rw [fillTemplate, hstep, ih hwell hrest fun g hg => hfields g (List.mem_cons_of_mem _ hg),
      hfill]

/-! ## Rendering -/

theorem lookup_perm {fields' : List (String × String)} (h : fields.Perm fields')
    (hnodup : (fields.map Prod.fst).Nodup) (name : String) :
    fields.lookup name = fields'.lookup name := by
  induction h with
  | nil => rfl
  | cons f _ ih =>
    rw [lookup_cons_eq_ite, lookup_cons_eq_ite, ih (List.nodup_cons.1 hnodup).2]
  | swap f g fields =>
    have hne : g.1 ≠ f.1 := fun h => (List.nodup_cons.1 hnodup).1 (h ▸ List.mem_cons_self)
    simp only [lookup_cons_eq_ite]
    by_cases hf : name = f.1
    · rw [if_neg fun hg => hne (hg.symm.trans hf), if_pos hf, if_pos hf]
    · rw [if_neg hf, if_neg hf]
  | trans h₁ _ ih₁ ih₂ => exact (ih₁ hnodup).trans (ih₂ ((h₁.map _).nodup hnodup))

theorem Part.filled_perm {fields' : List (String × String)} (h : fields.Perm fields')
    (hnodup : (fields.map Prod.fst).Nodup) (p : Part) : p.filled fields = p.filled fields' := by
  cases p with
  | text s => rfl
  | slot name => rw [Part.filled, Part.filled, lookup_perm h hnodup]

theorem render_eq {s : Setting} {name : Value} {template : String} {data : Loc}
    (hname : name.unhashable? = none)
    (htemplate : s.site.templates.get? name = some (.text template))
    (hfields : textFields (.object data) s = .ok fields s) :
    runSite .render [name, .object data] s = fillTemplate (.text template) fields s := by
  have hrender : runSite .render [name, .object data] s =
      (if s.heap.truthy (.object data) then
        textFields (.object data) >>= fillTemplate (.text template)
      else pure (.text template) : Routine Value) s := by
    refine (bind_ok (hashable_ok hname)).trans ?_
    refine (bind_ok rfl).trans ?_
    simp only [List.getD_cons_zero, htemplate]
    exact bind_ok rfl
  rw [hrender]
  split
  · exact bind_ok hfields
  · next hfalse =>
      have hempty : s.heap.entries data = [] := by simpa [Heap.truthy] using hfalse
      have hnone : textFields (.object data) s = .ok [] s := by
        refine (bind_ok (show entries data s = .ok _ s from rfl)).trans ?_
        rw [hempty]
        rfl
      cases hfields.symm.trans hnone
      rfl

/-- A template whose placeholders are names in braces, and data whose values have no placeholder for
one of its keys: rendering replaces all placeholders at once, and the order of the keys in the data
does not matter. -/
theorem render_replaces_at_once {s : Setting} {name : Value} {template : String} {parts : List Part}
    {data : Loc} {fields : List (String × String)} (hname : name.unhashable? = none)
    (htemplate : s.site.templates.get? name = some (.text template))
    (hparts : ∀ p ∈ parts, p.WellFormed) (hchars : template.toList = parts.flatMap Part.chars)
    (hfields : textFields (.object data) s = .ok fields s)
    (hkeys : ∀ f ∈ fields, NoBraces f.1 ∧ Settled (fields.map Prod.fst) f.2) :
    runSite .render [name, .object data] s =
        .ok (.text (String.ofList (parts.flatMap (Part.filled fields)))) s ∧
      ∀ (other : Loc) (fields' : List (String × String)),
        textFields (.object other) s = .ok fields' s → fields.Perm fields' →
        (fields.map Prod.fst).Nodup →
          runSite .render [name, .object other] s = runSite .render [name, .object data] s := by
  have htext : template = String.ofList (parts.flatMap Part.chars) := by
    rw [← hchars, String.ofList_toList]
  subst htext
  have hdata := (render_eq hname htemplate hfields).trans
    (congrFun (fillTemplate_parts hparts (List.Subset.refl _) hkeys) s)
  refine ⟨hdata, fun other fields' hother hperm hnodup => ?_⟩
  have hsub : fields'.map Prod.fst ⊆ fields.map Prod.fst := (hperm.map Prod.fst).symm.subset
  have hsame : parts.flatMap (Part.filled fields') = parts.flatMap (Part.filled fields) :=
    List.flatMap_congr fun p _ => (Part.filled_perm hperm hnodup p).symm
  rw [hdata, render_eq hname htemplate hother,
    fillTemplate_parts hparts hsub fun f hf => hkeys f (hperm.mem_iff.2 hf), hsame]

/-- A greeting with two names, and three objects with the same keys: in the first two, which differ
in the order of the keys, no value has a placeholder of a key; in the last two one has. -/
def greeting : Setting where
  heap :=
    { cells := #[.object [(.text "a", .text "\x7bz\x7d"), (.text "b", .int 5)],
        .object [(.text "b", .int 5), (.text "a", .text "\x7bz\x7d")],
        .object [(.text "a", .text "\x7b\x7bb\x7d\x7d"), (.text "b", .text "x")],
        .object [(.text "b", .text "x"), (.text "a", .text "\x7b\x7bb\x7d\x7d")]] }
  site := { templates := [(.text "t", .text "Hi \x7b\x7ba\x7d\x7d\x7b\x7bb\x7d\x7d!")] }

theorem greeting_rendered :
    runSite .render [.text "t", .object 0] greeting = .ok (.text "Hi \x7bz\x7d5!") greeting ∧
      runSite .render [.text "t", .object 1] greeting = .ok (.text "Hi \x7bz\x7d5!") greeting := by
  have hplain : ∀ s : String, Inert s.toList → Settled ["a", "b"] s := fun s h =>
    ⟨[.text s], by simpa [Part.WellFormed] using h, by simp [Part.chars], by simp⟩
  have h := @render_replaces_at_once greeting (.text "t") _
    [.text "Hi ", .slot "a", .slot "b", .text "!"] 0 [("a", "\x7bz\x7d"), ("b", "5")]
    rfl rfl (by simp [Part.WellFormed, Inert, NoBraces]) (by decide +kernel) rfl
    (by simp [NoBraces]; exact ⟨hplain _ (by simp [Inert]), hplain _ (by simp [Inert])⟩)
  have hrest := h.2 1 [("b", "5"), ("a", "\x7bz\x7d")] rfl (by decide) (by decide)
  exact ⟨h.1, hrest.trans h.1⟩

/-- A placeholder in a value is replaced when its key comes later, and kept when it came before. -/
theorem greeting_depends_on_order :
    runSite .render [.text "t", .object 2] greeting = .ok (.text "Hi xx!") greeting ∧
      runSite .render [.text "t", .object 3] greeting =
        .ok (.text "Hi \x7b\x7bb\x7d\x7dx!") greeting := by
  refine ⟨(render_eq rfl rfl rfl).trans ?_, (render_eq rfl rfl rfl).trans ?_⟩
  · exact congrArg (fun t => EStateM.Result.ok (Value.text t) greeting) (by decide +kernel)
  · exact congrArg (fun t => EStateM.Result.ok (Value.text t) greeting) (by decide +kernel)

end ScriptLang.Package
