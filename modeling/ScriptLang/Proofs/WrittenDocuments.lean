import ScriptLang.Proofs.DocumentText
import ScriptLang.Value.Document

/-!
# What is written of a value

A value with a document is written as the text of that document. Of any other value a writer puts
down what comes before the first part without a document, and stops there. Such a text breaks off
inside a list or an object, or is empty, and no document can be read from it (`read_writtenPart`).
-/

namespace ScriptLang

open ScriptLang.Number ScriptLang.Json

variable {e : Fault} {cs : List Char} {v : Value}

/-! ## Documents of values -/

variable {α β : Type} {xs : List α} {d : Nat}

theorem mapM_ok_iff {g : α → Except Fault β} {ys : List β} :
    xs.mapM g = .ok ys ↔ List.Forall₂ (fun x y => g x = .ok y) xs ys := by
  induction xs generalizing ys with
  | nil => cases ys <;> simp [pure, Except.pure]
  | cons x xs ih =>
    rw [List.mapM_cons]
    cases hx : g x with
    | error e => cases ys <;> simp [bind, Except.bind, hx]
    | ok y =>
      cases hxs : xs.mapM g with
      | error e => cases ys <;> simp [bind, Except.bind, ← ih, hxs, hx]
      | ok zs => cases ys <;> simp [bind, Except.bind, pure, Except.pure, ← ih, hxs, hx]

theorem mapM_error_cons {g : α → Except Fault β} {x : α} (h : (x :: xs).mapM g = .error e) :
    g x = .error e ∨ ∃ y, g x = .ok y ∧ xs.mapM g = .error e := by
  rw [List.mapM_cons] at h
  cases hx : g x with
  | error e' =>
    rw [hx] at h
    left
    cases h
    rfl
  | ok y =>
    rw [hx] at h
    right
    refine ⟨y, rfl, ?_⟩
    cases hxs : xs.mapM g with
    | error e' =>
      rw [hxs] at h
      exact h
    | ok ys =>
      rw [hxs] at h
      cases h

theorem map_ok {g : α → β} {r : Except Fault α} {b : β} (h : g <$> r = .ok b) :
    ∃ a, r = .ok a ∧ g a = b := by
  cases r with
  | error e => cases h
  | ok a => exact ⟨a, rfl, Except.ok.inj h⟩

theorem map_error {g : α → β} {r : Except Fault α} (h : g <$> r = .error e) : r = .error e := by
  cases r with
  | error e' =>
    cases h
    rfl
  | ok a => cases h

theorem fieldOf_ok {document : Value → Except Fault Json} {e : Value × Value} {f : String × Json} :
    fieldOf document e = .ok f ↔ e.1.fieldName = .ok f.1 ∧ document e.2 = .ok f.2 := by
  obtain ⟨k, j⟩ := f
  rw [fieldOf]
  cases e.1.fieldName with
  | error x => simp [bind, Except.bind]
  | ok name =>
    cases document e.2 with
    | error x => simp [bind, Except.bind]
    | ok doc => simp [bind, Except.bind, pure, Except.pure]

theorem fieldOf_error {document : Value → Except Fault Json} {e : Value × Value} {x : Fault}
    (h : fieldOf document e = .error x) :
    e.1.fieldName = .error x ∨ ∃ name, e.1.fieldName = .ok name ∧ document e.2 = .error x := by
  rw [fieldOf] at h
  cases hname : e.1.fieldName with
  | error y =>
    rw [hname] at h
    left
    cases h
    rfl
  | ok name =>
    rw [hname] at h
    right
    refine ⟨name, rfl, ?_⟩
    cases hdoc : document e.2 with
    | error y =>
      rw [hdoc] at h
      cases h
      rfl
    | ok doc =>
      rw [hdoc] at h
      cases h

theorem exists_of_forall₂_right {R : α → β → Prop} {ys : List β} (h : List.Forall₂ R xs ys) {y : β}
    (hy : y ∈ ys) : ∃ x ∈ xs, R x y := by
  induction h with
  | nil => cases hy
  | cons hxy _ ih =>
    rcases List.mem_cons.1 hy with rfl | hy
    · exact ⟨_, List.mem_cons_self, hxy⟩
    · obtain ⟨x, hx, hR⟩ := ih hy
      exact ⟨x, List.mem_cons_of_mem _ hx, hR⟩

/-- A document is nested no deeper than allowed, and its whole numbers have texts. -/
structure Json.Fits (d : Nat) (j : Json) : Prop where
  depth : j.depth ≤ d
  sized : j.sized = true

theorem Json.Fits.list {js : List Json} (h : ∀ j ∈ js, Json.Fits d j) :
    Json.Fits (d + 1) (.list js) where
  depth := by
    rw [Json.depth]
    exact Nat.succ_le_succ (depthItems_le_iff.2 fun j hj => (h j hj).depth)
  sized := by
    rw [Json.sized]
    exact sizedItems_iff.2 fun j hj => (h j hj).sized

theorem Json.Fits.fields {fs : List (String × Json)} (h : ∀ e ∈ fs, Json.Fits d e.2) :
    Json.Fits (d + 1) (.fields fs) where
  depth := by
    rw [Json.depth]
    exact Nat.succ_le_succ (depthFields_le_iff.2 fun e he => (h e he).depth)
  sized := by
    rw [Json.sized]
    exact sizedFields_iff.2 fun e he => (h e he).sized

theorem Json.Fits.leaf {j : Json} (hdepth : j.depth = 1) (hsized : j.sized = true) :
    Json.Fits (d + 1) j :=
  ⟨by omega, hsized⟩

theorem fits_of_mapM {g : α → Except Fault Json} {js : List Json}
    (hfits : ∀ x j, g x = .ok j → Json.Fits d j) (h : xs.mapM g = .ok js) :
    ∀ j ∈ js, Json.Fits d j := by
  intro j hj
  obtain ⟨x, -, hx⟩ := exists_of_forall₂_right (mapM_ok_iff.1 h) hj
  exact hfits x j hx

theorem Heap.documentOf_fits (s : Heap) {seen : List Loc} {j : Json}
    (h : s.documentOf d seen v = .ok j) : Json.Fits d j := by
  induction d generalizing seen v j with
  | zero => cases h
  | succ d ih =>
    have hitems {seen : List Loc} {xs : List Value}
        (hxs : (Json.list <$> xs.mapM (s.documentOf d seen)) = .ok j) : Json.Fits (d + 1) j := by
      obtain ⟨js, hjs, rfl⟩ := map_ok hxs
      exact Json.Fits.list (fits_of_mapM (fun _ _ => ih) hjs)
    rw [documentOf.eq_def] at h
    dsimp only at h
    split at h
    · cases h
      exact Json.Fits.leaf rfl rfl
    · cases h
      exact Json.Fits.leaf rfl rfl
    · split at h
      · next n hn =>
        cases h
        exact Json.Fits.leaf rfl hn
      · cases h
    · cases h
      exact Json.Fits.leaf rfl rfl
    · cases h
      exact Json.Fits.leaf rfl rfl
    · cases h
      exact Json.Fits.leaf rfl rfl
    · exact hitems h
    · split at h
      · cases h
      · exact hitems h
    · split at h
      · cases h
      · obtain ⟨fs, hfs, rfl⟩ := map_ok h
        apply Json.Fits.fields
        intro e he
        obtain ⟨entry, -, hentry⟩ := exists_of_forall₂_right (mapM_ok_iff.1 hfs) he
        exact ih (fieldOf_ok.1 hentry).2
    · cases h

/-! ## Texts that break off -/

namespace Json

/-- A text from which nothing can be read, whatever nesting from `d` levels on is allowed: `part` is
given the length that the text may have and the nesting. -/
structure BrokenPart {α : Type} (part : Nat → Nat → List Char → Except JsonError (α × List Char))
    (d : Nat) (cs : List Char) : Prop where
  start : cs = [] ∨ Starts cs
  unread : ∀ total depth, d ≤ depth → cs.length ≤ total → ∃ e, part total depth cs = .error e

/-- A text from which no value can be read. -/
def Broken : Nat → List Char → Prop :=
  BrokenPart readValue

/-- A text from which no parts can be read up to the mark that closes them. -/
def BrokenParts {α : Type} (close : Char)
    (part : Nat → Nat → List Char → Except JsonError (α × List Char)) (d : Nat) (cs : List Char) :
    Prop :=
  ∀ fuel, BrokenPart (fun total depth => readParts close (part total depth) fuel) d cs

/-- A field with a value of limited nesting. -/
def fieldPart (total depth : Nat) : List Char → Except JsonError ((String × Json) × List Char) :=
  readField total (readValue total depth)

theorem noGap_nil : NoGap [] := by rintro _ ⟨⟩

section

variable {α : Type} {part : Nat → Nat → List Char → Except JsonError (α × List Char)}
  {d : Nat} {c : Char}

theorem BrokenPart.noGap (h : BrokenPart part d cs) : NoGap cs := by
  rcases h.start with rfl | h
  · exact noGap_nil
  · exact h.noGap

theorem brokenPart_nil (h : ∀ total depth, ∃ e, part total depth [] = .error e) (d : Nat) :
    BrokenPart part d [] :=
  ⟨.inl rfl, fun total depth _ _ => h total depth⟩

theorem brokenParts_of_succ (hstart : cs = [] ∨ Starts cs)
    (h : ∀ total depth fuel, d ≤ depth → cs.length ≤ total →
      ∃ e, readParts c (part total depth) (fuel + 1) cs = .error e) : BrokenParts c part d cs := by
  refine fun fuel => ⟨hstart, fun total depth hdepth hlen => ?_⟩
  cases fuel with
  | zero => exact ⟨_, rfl⟩
  | succ fuel => exact h total depth fuel hdepth hlen

theorem BrokenPart.parts (h : BrokenPart part d cs) : BrokenParts c part d cs := by
  refine brokenParts_of_succ h.start fun total depth fuel hdepth hlen => ?_
  obtain ⟨e, he⟩ := h.unread total depth hdepth hlen
  exact ⟨e, readParts_stopped fuel he⟩

theorem BrokenParts.enclosed (h : BrokenParts c part d cs) (hc : isClose c = true)
    {first : List Char} (hfirst : IsGaps first) {total depth : Nat} (hdepth : d ≤ depth)
    (hlen : (first ++ cs).length ≤ total) :
    ∃ e, readEnclosed total c (part total depth) (first ++ cs) = .error e := by
  have hne : cs.head? ≠ some c := by
    rcases (h 0).start with rfl | h
    · nofun
    · exact h.head_ne hc
  rw [readEnclosed_parts total hfirst (h 0).noGap hne]
  rw [List.length_append] at hlen
  exact (h (total + 1)).unread total depth hdepth (by omega)

variable {text : List Char} {x : α} (hstart : Starts text)
  (hread : ∀ total depth, d ≤ depth → ReadsBack (part total depth) total text x)

include hstart hread

theorem brokenParts_open : BrokenParts c part d text := by
  refine brokenParts_of_succ (.inr hstart) fun total depth fuel hdepth hlen => ?_
  have hwhole := hread total depth hdepth [] (by rintro _ ⟨⟩) (by simpa using hlen)
  rw [List.append_nil] at hwhole
  exact readParts_open fuel hwhole

theorem BrokenParts.after (h : BrokenParts c part d cs) (hc : isClose c = true)
    {between : List Char} (hbetween : IsGaps between) :
    BrokenParts c part d (text ++ ',' :: (between ++ cs)) := by
  refine brokenParts_of_succ (.inr (hstart.append _)) fun total depth fuel hdepth hlen => ?_
  rw [readParts_next fuel hc hbetween (h 0).noGap
    (hread total depth hdepth _ (ended_cons (by decide) _) hlen)]
  simp only [List.length_cons, List.length_append] at hlen
  obtain ⟨e, he⟩ := (h fuel).unread total depth hdepth (by omega)
  rw [he]
  exact ⟨e, rfl⟩

end

theorem broken_nil (d : Nat) : Broken d [] :=
  brokenPart_nil (fun _ depth => by cases depth <;> exact ⟨_, rfl⟩) d

theorem broken_succ {c : Char} (hc : isGap c = false ∧ isClose c = false ∧ c.toNat < 128) {d : Nat}
    (h : ∀ total depth, d ≤ depth → cs.length < total → ∃ e, readValue total (depth + 1) (c :: cs) =
      .error e) : Broken (d + 1) (c :: cs) where
  start := .inr ⟨c, cs, rfl, hc⟩
  unread total depth hdepth hlen := by
    obtain ⟨depth, rfl⟩ := Nat.exists_eq_add_one_of_ne_zero (Nat.ne_zero_of_lt hdepth)
    exact h total depth (Nat.le_of_succ_le_succ hdepth) hlen

section

variable {d : Nat} {first : List Char} (hfirst : IsGaps first)

include hfirst

theorem BrokenParts.list (h : BrokenParts ']' readValue d cs) :
    Broken (d + 1) ('[' :: (first ++ cs)) := by
  refine broken_succ (by decide) fun total depth hdepth hlen => ?_
  obtain ⟨e, he⟩ := h.enclosed rfl hfirst hdepth (Nat.le_of_succ_le hlen)
  rw [readValue_list, he]
  exact ⟨e, rfl⟩

theorem BrokenParts.object (h : BrokenParts '\x7d' fieldPart d cs) :
    Broken (d + 1) ('\x7b' :: (first ++ cs)) := by
  refine broken_succ (by decide) fun total depth hdepth hlen => ?_
  obtain ⟨e, he⟩ := h.enclosed rfl hfirst hdepth (Nat.le_of_succ_le hlen)
  rw [fieldPart] at he
  rw [readValue_object, he]
  exact ⟨e, rfl⟩

end

theorem Broken.field {d : Nat} (h : Broken d cs) (name : String) :
    BrokenPart fieldPart d ((quote name).toList ++ ':' :: ' ' :: cs) where
  start := by
    rw [toList_quote]
    exact .inr ⟨_, _, rfl, by decide, by decide, by decide⟩
  unread := by
    intro total depth hdepth hlen
    have hshort : cs.length ≤ total := by
      simp only [List.length_cons, List.length_append] at hlen
      omega
    obtain ⟨e, he⟩ := h.unread total depth hdepth hshort
    rw [fieldPart, readField_named name h.noGap hlen, he]
    exact ⟨e, rfl⟩

theorem Broken.read {d : Nat} (h : Broken d cs) (hd : d ≤ nestingLimit) :
    ∃ e, read (String.ofList cs) = .error e := by
  obtain ⟨e, he⟩ := h.unread cs.length nestingLimit hd (Nat.le_refl _)
  rw [Json.read, String.toList_ofList]
  dsimp only
  split
  · exact ⟨_, rfl⟩
  · rw [skipGap_eq_self h.noGap, he]
    exact ⟨_, rfl⟩

end Json

/-! ## What a writer puts down -/

namespace Draft

theorem of_andThen (a : String) (b : Draft) : (of a).andThen b = ⟨a ++ b.text, b.whole⟩ := rfl

theorem of_andThen_of (a b : String) : (of a).andThen (of b) = of (a ++ b) := rfl

theorem andThen_stopped {a : Draft} (h : a.whole = false) (b : Draft) : a.andThen b = a := by
  rw [andThen, h]
  rfl

theorem sequence_whole {α : Type} {part : α → String → Draft} (before between : String) {x : α}
    {xs : List α} {t : String} {ts : List String}
    (h : List.Forall₂ (fun x t => ∀ before, part x before = of (before ++ t)) (x :: xs) (t :: ts)) :
    sequence before between ((x :: xs).map part) =
      of (before ++ String.intercalate between (t :: ts)) := by
  induction xs generalizing x before t ts with
  | nil =>
    obtain ⟨hx, hxs⟩ := List.forall₂_cons.1 h
    cases hxs
    rw [List.map_cons, sequence, hx before, of_andThen, String.intercalate_singleton]
    simp [sequence, of]
  | cons y xs ih =>
    obtain ⟨hx, hxs⟩ := List.forall₂_cons.1 h
    cases ts with
    | nil => cases hxs
    | cons u ts =>
      rw [List.map_cons, sequence, hx before, of_andThen, ih between hxs,
        String.intercalate_cons_cons]
      simp [of, String.append_assoc]

/-- A writer has stopped: before what stands in front, or after it with a text that breaks off. -/
def Stops (broken : List Char → Prop) (before : String) (draft : Draft) : Prop :=
  draft.whole = false ∧
    (draft.text = "" ∨ ∃ cs, draft.text = before ++ String.ofList cs ∧ broken cs)

/-- A part that stops the writer ends the whole sequence, after the parts that come before it. -/
theorem sequence_stops {α β : Type} {broken : List Char → Prop} {part : α → String → Draft}
    {document : α → Except Fault β} {between : List Char}
    (hstop : ∀ x e, document x = .error e → ∀ before, Stops broken before (part x before))
    (hgoes : ∀ x y, document x = .ok y →
      ∃ t : String, (∀ before, part x before = of (before ++ t)) ∧
      broken t.toList ∧ ∀ cs, broken cs → broken (t.toList ++ ',' :: (between ++ cs)))
    {xs : List α} (h : xs.mapM document = .error e) (before : String) :
    Stops broken before (sequence before (String.ofList (',' :: between)) (xs.map part)) := by
  induction xs generalizing before with
  | nil => cases h
  | cons x xs ih =>
    rw [List.map_cons, sequence]
    rcases mapM_error_cons h with hx | ⟨y, hx, hxs⟩
    · have hstopped := hstop x e hx before
      rw [andThen_stopped hstopped.1]
      exact hstopped
    · obtain ⟨t, ht, hopen, hafter⟩ := hgoes x y hx
      obtain ⟨hwhole, htext⟩ := ih hxs (String.ofList (',' :: between))
      rw [ht before, of_andThen]
      refine ⟨hwhole, .inr ?_⟩
      rcases htext with htext | ⟨cs, htext, hcs⟩
      · refine ⟨t.toList, ?_, hopen⟩
        rw [htext, String.append_empty, String.ofList_toList]
      · refine ⟨_, ?_, hafter cs hcs⟩
        rw [htext, ← String.toList_inj]
        simp

/-- What is put down of a value with its document known: the text of the document, or a text that
breaks off. -/
structure Follows (f : Json.Layout) (level d : Nat) (document : Except Fault Json) (draft : Draft) :
    Prop where
  whole : ∀ j, document = .ok j → draft = of (renderAt f level j) ∧ Fits d j
  broken : ∀ e, document = .error e → draft.whole = false ∧ Broken d draft.text.toList

theorem follows_stopped (f : Json.Layout) (level d : Nat) (e : Fault) :
    Follows f level d (.error e) stopped where
  whole := by rintro j ⟨⟩
  broken := fun _ _ => ⟨rfl, broken_nil d⟩

section

variable {f : Json.Layout} {level d : Nat} {document : Value → Except Fault Json}
  {part : Value → Draft} (hpart : ∀ v, Follows f (level + 1) d (document v) (part v))

include hpart

theorem item_goes {j : Json} (hlacks : v.lacksText = false) (h : document v = .ok j)
    (before : String) : item part v before = of (before ++ renderAt f (level + 1) j) := by
  rw [item, hlacks, if_neg Bool.false_ne_true, ((hpart v).whole j h).1]
  rfl

theorem item_stops (h : document v = .error e) (before : String) :
    Stops (BrokenParts ']' readValue d) before (item part v before) := by
  obtain ⟨hwhole, hbroken⟩ := (hpart v).broken e h
  rw [item]
  split
  · exact ⟨rfl, .inl rfl⟩
  · exact ⟨hwhole, .inr ⟨_, by rw [String.ofList_toList]; rfl, hbroken.parts⟩⟩

theorem field_goes {e : Value × Value} {g : String × Json} (h : fieldOf document e = .ok g)
    (before : String) : field part e before = of (before ++ renderField f (level + 1) g) := by
  obtain ⟨hname, hvalue⟩ := fieldOf_ok.1 h
  rw [renderField, field, hname, ((hpart e.2).whole _ hvalue).1]
  dsimp only
  rw [of_andThen, String.append_assoc, String.append_assoc, String.append_assoc]
  rfl

theorem field_stops {e : Value × Value} {x : Fault} (h : fieldOf document e = .error x)
    (before : String) : Stops (BrokenParts '\x7d' fieldPart d) before (field part e before) := by
  rw [field]
  rcases fieldOf_error h with hname | ⟨name, hname, hvalue⟩
  · rw [hname]
    exact ⟨rfl, .inl rfl⟩
  · obtain ⟨hwhole, hbroken⟩ := (hpart e.2).broken x hvalue
    rw [hname]
    dsimp only
    rw [of_andThen]
    refine ⟨hwhole, .inr ⟨_, ?_, (hbroken.field name).parts⟩⟩
    rw [← String.toList_inj]
    simp

theorem list_follows (hlacks : ∀ v j, document v = .ok j → v.lacksText = false) (xs : List Value) :
    Follows f level (d + 1) (Json.list <$> xs.mapM document) (list f level part xs) := by
  obtain ⟨first, between, last, hfirst, hbetween, -, hmarks⟩ := marks_eq f level
  rw [list, hmarks]
  constructor
  · intro j h
    obtain ⟨js, hjs, rfl⟩ := map_ok h
    have hall := mapM_ok_iff.1 hjs
    have hfits : ∀ j ∈ js, Fits d j := by
      intro j hj
      obtain ⟨x, -, hx⟩ := exists_of_forall₂_right hall hj
      exact ((hpart x).whole j hx).2
    refine ⟨?_, Fits.list hfits⟩
    cases xs with
    | nil =>
      cases hall
      simp [renderAt, renderItems, Layout.enclose]
    | cons x xs =>
      obtain ⟨j, js, hx, hxs, rfl⟩ := List.forall₂_cons_left_iff.1 hall
      have hparts :
          List.Forall₂ (fun v t => ∀ before, item part v before = of (before ++ t)) (x :: xs)
          (renderItems f (level + 1) (j :: js)) := by
        rw [renderItems_eq, List.forall₂_map_right_iff]
        exact hall.imp fun v j hv before => item_goes hpart (hlacks v j hv) hv before
      rw [renderItems] at hparts
      dsimp only
      rw [if_neg (by simp), sequence_whole _ _ hparts, of_andThen_of, renderAt, renderItems,
        Layout.enclose, hmarks]
      simp [String.append_assoc]
  · intro e h
    have hxs := map_error h
    have hne : xs.isEmpty = false := by
      cases xs with
      | nil => cases hxs
      | cons x xs => rfl
    have hstops : Stops (BrokenParts ']' readValue d) ("[" ++ String.ofList first)
        (sequence ("[" ++ String.ofList first) (String.ofList (',' :: between))
          (xs.map (item part))) := by
      refine sequence_stops (fun v e hv before => item_stops hpart hv before) ?_ hxs _
      intro v j hv
      have hfits := ((hpart v).whole j hv).2
      have hread (total depth : Nat) (hd : d ≤ depth) :=
        readValue_render f total (level + 1) hfits.sized (hfits.depth.trans hd)
      have hstart := renderAt_starts f (level + 1) j
      exact ⟨_, item_goes hpart (hlacks v j hv) hv, brokenParts_open hstart hread,
        fun cs hcs => hcs.after hstart hread rfl hbetween⟩
    obtain ⟨hwhole, htext⟩ := hstops
    dsimp only
    rw [hne, if_neg Bool.false_ne_true, andThen_stopped hwhole]
    refine ⟨hwhole, ?_⟩
    rcases htext with htext | ⟨cs, htext, hcs⟩
    · rw [htext]
      exact broken_nil _
    · have hlist : (("[" ++ String.ofList first) ++ String.ofList cs).toList =
          '[' :: (first ++ cs) := by
        simp
      rw [htext, hlist]
      exact hcs.list hfirst

theorem object_follows (es : Entries) :
    Follows f level (d + 1) (Json.fields <$> es.mapM (fieldOf document))
      (object f level part es) := by
  obtain ⟨first, between, last, hfirst, hbetween, -, hmarks⟩ := marks_eq f level
  have hfit {e : Value × Value} {g : String × Json} (he : fieldOf document e = .ok g) :
      Fits d g.2 :=
    ((hpart e.2).whole g.2 (fieldOf_ok.1 he).2).2
  rw [object, hmarks]
  constructor
  · intro j h
    obtain ⟨gs, hgs, rfl⟩ := map_ok h
    have hall := mapM_ok_iff.1 hgs
    have hfits : ∀ g ∈ gs, Fits d g.2 := by
      intro g hg
      obtain ⟨e, -, he⟩ := exists_of_forall₂_right hall hg
      exact hfit he
    refine ⟨?_, Fits.fields hfits⟩
    cases es with
    | nil =>
      cases hall
      simp [renderAt, renderFields, Layout.enclose]
    | cons e es =>
      obtain ⟨g, gs, he, hes, rfl⟩ := List.forall₂_cons_left_iff.1 hall
      have hparts :
          List.Forall₂ (fun e t => ∀ before, field part e before = of (before ++ t)) (e :: es)
          (renderFields f (level + 1) (g :: gs)) := by
        rw [renderFields_eq, List.forall₂_map_right_iff]
        exact hall.imp fun e g he before => field_goes hpart he before
      rw [renderFields_eq, List.map_cons] at hparts
      dsimp only
      rw [if_neg (by simp), sequence_whole _ _ hparts, of_andThen_of, of_andThen_of, renderAt,
        renderFields_eq, Layout.enclose, hmarks]
      simp [String.append_assoc]
  · intro x h
    have hes := map_error h
    have hne : es.isEmpty = false := by
      cases es with
      | nil => cases hes
      | cons e es => rfl
    have hstops : Stops (BrokenParts '\x7d' fieldPart d) ""
        (sequence "" (String.ofList (',' :: between)) (es.map (field part))) := by
      refine sequence_stops (fun e x he before => field_stops hpart he before) ?_ hes _
      intro e g he
      have hread (total depth : Nat) (hd : d ≤ depth) : ReadsBack (fieldPart total depth) total
          (renderField f (level + 1) g).toList g :=
        (readValue_render f total (level + 1) (hfit he).sized ((hfit he).depth.trans hd)).field
      have hstart := renderField_starts f (level + 1) g
      exact ⟨_, field_goes hpart he, brokenParts_open hstart hread,
        fun cs hcs => hcs.after hstart hread rfl hbetween⟩
    obtain ⟨hwhole, htext⟩ := hstops
    have hopened : ((of ("\x7b" ++ String.ofList first)).andThen
        (sequence "" (String.ofList (',' :: between)) (es.map (field part)))).whole = false :=
        hwhole
    dsimp only
    rw [hne, if_neg Bool.false_ne_true, andThen_stopped hopened]
    refine ⟨hopened, ?_⟩
    rw [of_andThen]
    dsimp only
    rcases htext with htext | ⟨cs, htext, hcs⟩
    · have hopen : ("\x7b" ++ String.ofList first ++ "").toList = '\x7b' :: (first ++ []) := by simp
      rw [htext, hopen]
      exact (brokenPart_nil (fun _ _ => ⟨_, rfl⟩) d).parts.object hfirst
    · have hopen : ("\x7b" ++ String.ofList first ++ ("" ++ String.ofList cs)).toList =
          '\x7b' :: (first ++ cs) := by simp
      rw [htext, hopen]
      exact hcs.object hfirst

end

end Draft

variable {j : Json} {d : Nat}

theorem Json.renderAt_leaf (f : Json.Layout) (level : Nat) (h : j.depth ≤ 1) :
    renderAt f level j = render f j := by
  cases j with
  | list items =>
    cases items with
    | nil => simp [render, renderAt, renderItems, Layout.enclose]
    | cons v vs =>
      rw [depth, depthItems] at h
      have := depth_pos v
      omega
  | fields fs =>
    cases fs with
    | nil => simp [render, renderAt, renderFields, Layout.enclose]
    | cons g fs =>
      obtain ⟨k, v⟩ := g
      rw [depth, depthFields] at h
      have := depth_pos v
      omega
  | _ => simp [render, renderAt]

/-- A value that has parts of its own. -/
def Value.HasParts (v : Value) : Prop :=
  (∃ xs, v = .tuple xs) ∨ (∃ l, v = .array l) ∨ ∃ l, v = .object l

theorem Heap.leaf_eq (s : Heap) (f : Json.Layout) (d level : Nat) (seen : List Loc)
    (h : ¬ v.HasParts) :
    s.documentOf (d + 1) seen v = s.documentOf 1 [] v ∧ s.writtenPart f (d + 1) level seen v =
      match s.documentOf 1 [] v with
      | .ok doc => .of (Json.render f doc)
      | .error _ => .stopped := by
  cases v with
  | tuple xs => exact absurd (.inl ⟨xs, rfl⟩) h
  | array l => exact absurd (.inr (.inl ⟨l, rfl⟩)) h
  | object l => exact absurd (.inr (.inr ⟨l, rfl⟩)) h
  | _ => exact ⟨rfl, rfl⟩

theorem Heap.leaf_follows (s : Heap) (f : Json.Layout) (d level : Nat) (seen : List Loc)
    (hleaf : ¬ v.HasParts) : Draft.Follows f level (d + 1) (s.documentOf (d + 1) seen v)
      (s.writtenPart f (d + 1) level seen v) := by
  obtain ⟨hdoc, hpart⟩ := s.leaf_eq f d level seen hleaf
  rw [hdoc, hpart]
  cases h : s.documentOf 1 [] v with
  | error e => exact Draft.follows_stopped f level (d + 1) e
  | ok doc =>
    have hfits := s.documentOf_fits h
    constructor
    · rintro j ⟨⟩
      refine ⟨?_, ⟨hfits.depth.trans (Nat.le_add_left _ _), hfits.sized⟩⟩
      rw [renderAt_leaf f level hfits.depth]
    · rintro e ⟨⟩

theorem Heap.lacksText_of_documentOf (s : Heap) {seen : List Loc}
    (h : s.documentOf d seen v = .ok j) : v.lacksText = false := by
  cases d with
  | zero => cases h
  | succ d =>
    cases v with
    | int n =>
      rw [documentOf] at h
      split at h
      · next hsome => rw [Value.lacksText, ← Option.not_isSome, hsome, Bool.not_true]
      · cases h
    | _ => rfl

/-- What is put down of a value is the text of its document, or breaks off. -/
theorem Heap.writtenPart_follows (s : Heap) (f : Json.Layout) (d level : Nat) (seen : List Loc)
    (v : Value) :
    Draft.Follows f level d (s.documentOf d seen v) (s.writtenPart f d level seen v) := by
  induction d generalizing level seen v with
  | zero => exact Draft.follows_stopped f level 0 _
  | succ d ih =>
    by_cases hparts : v.HasParts
    · rcases hparts with ⟨xs, rfl⟩ | ⟨l, rfl⟩ | ⟨l, rfl⟩
      · rw [documentOf, writtenPart]
        exact Draft.list_follows (ih (level + 1) seen) (fun _ _ h => s.lacksText_of_documentOf h) xs
      · rw [documentOf, writtenPart]
        split
        · exact Draft.follows_stopped f level _ _
        · exact Draft.list_follows (ih (level + 1) (l :: seen))
            (fun _ _ h => s.lacksText_of_documentOf h) _
      · rw [documentOf, writtenPart]
        split
        · exact Draft.follows_stopped f level _ _
        · exact Draft.object_follows (ih (level + 1) (l :: seen)) _
    · exact s.leaf_follows f d level seen hparts

theorem Heap.read_writtenPart (s : Heap) (f : Json.Layout) (hd : d ≤ nestingLimit)
    (h : s.documentOf d [] v = .error e) :
    ∃ e', Json.read (s.writtenPart f d 0 [] v).text = .error e' := by
  have hbroken := ((s.writtenPart_follows f d 0 [] v).broken e h).2.read hd
  rwa [String.ofList_toList] at hbroken

theorem Heap.read_documentOf (s : Heap) (f : Json.Layout) (hd : d ≤ nestingLimit)
    (h : s.documentOf d [] v = .ok j) : Json.read (render f j) = .ok j := by
  have hfits := s.documentOf_fits h
  exact read_render f hfits.sized (hfits.depth.trans hd)

end ScriptLang
