import Mathlib.Data.List.Forall2
import ScriptLang.Package.Terminal
import ScriptLang.Proofs.Effects
import ScriptLang.Proofs.IndexAssignment

/-!
# Boxes and tables line up

The width of a column is raised by every row, so at the end no cell of any row is wider than its
column (`fitsColumns_foldl_widen`). Padded cells then have the widths of the columns in every row.
-/

namespace ScriptLang.Package

open ScriptLang.Action

/-- A setting with more lines printed. -/
def printing (s : Setting) (lines : List String) : Setting :=
  { s with out := s.out ++ String.join (lines.map (· ++ "\n")) }

/-- A text with blanks after it. -/
def Padded (text padded : String) : Prop :=
  ∃ n, padded = text ++ String.ofList (List.replicate n ' ')

/-- A row of a table: its cells are padded to the widths of the columns, with separators between
them. -/
def InColumns (widths : List Nat) (cells : List String) (line : String) : Prop :=
  ∃ parts, line = String.intercalate " | " parts ∧ parts.map String.length = widths ∧
    List.Forall₂ Padded cells parts

/-- No text is wider than its column. -/
def FitsColumns (widths : List Nat) (texts : List String) : Prop :=
  List.Forall₂ (fun t w => t.length ≤ w) texts widths

/-- The cells of a row have texts. -/
def Shows (s : Setting) (row : Loc) (texts : List String) : Prop :=
  List.Forall₂ (fun c t => s.text c = .ok t) (s.heap.items row).toList texts

variable {s : Setting} {names texts : List String} {widths : List Nat}

theorem printLines_eq (s : Setting) (lines : List String) :
    printLines lines s = .ok () (printing s lines) := by
  induction lines generalizing s with
  | nil => simp [printing, String.join_nil]; rfl
  | cons line lines ih =>
    refine (ih _).trans (congrArg (fun out => EStateM.Result.ok () { s with out }) ?_)
    simp [String.join_cons, String.append_assoc]

/-! ## Lengths -/

theorem length_padRight {text : String} {width : Nat} (h : text.length ≤ width) :
    (Text.padRight width ' ' text).length = width := by
  simp [Text.padRight]
  omega

theorem length_times_dash (n : Nat) : (times n "-").length = n := by
  have hone : "-".length = 1 := rfl
  simp [times, hone]

theorem length_framed {left inside right : String} {l n r : Nat} (hl : left.length = l)
    (hr : right.length = r) (hn : inside.length = n) :
    (left ++ inside ++ right).length = n + (l + r) := by
  rw [String.length_append, String.length_append, hl, hr, hn]
  omega

theorem le_foldl_max {n : Nat} {ns : List Nat} (m : Nat) (h : n ≤ m ∨ n ∈ ns) :
    n ≤ ns.foldl max m := by
  induction ns generalizing m with
  | nil => simpa using h
  | cons k ns ih =>
    refine ih _ ?_
    rcases h with h | h
    · exact .inl (Nat.le_trans h (Nat.le_max_left _ _))
    · rcases List.mem_cons.1 h with rfl | h
      · exact .inl (Nat.le_max_right _ _)
      · exact .inr h

theorem length_intercalate_congr (sep : String) {parts parts' : List String}
    (h : parts.map String.length = parts'.map String.length) :
    (String.intercalate sep parts).length = (String.intercalate sep parts').length := by
  induction parts generalizing parts' with
  | nil => rw [List.map_eq_nil_iff.1 h.symm]
  | cons p ps ih =>
    cases parts' with
    | nil => cases h
    | cons q qs =>
      obtain ⟨hp, hrest⟩ := List.cons.inj h
      have hlength := ih hrest
      cases ps <;> cases qs <;> simp_all [String.intercalate_cons_cons]

theorem InColumns.length_eq {cells cells' : List String} {line line' : String}
    (h : InColumns widths cells line) (h' : InColumns widths cells' line') :
    line.length = line'.length := by
  obtain ⟨parts, rfl, hparts, -⟩ := h
  obtain ⟨parts', rfl, hparts', -⟩ := h'
  exact length_intercalate_congr _ (hparts.trans hparts'.symm)

/-! ## Columns -/

theorem FitsColumns.inColumns (h : FitsColumns widths texts) :
    InColumns widths texts (tableRow widths texts) := by
  refine ⟨(texts.zip widths).map fun p => Text.padRight p.2 ' ' p.1, rfl, ?_, ?_⟩
  · induction h with
    | nil => rfl
    | cons hfits _ ih =>
      rw [List.zip_cons_cons, List.map_cons, List.map_cons, length_padRight hfits, ih]
  · induction h with
    | nil => exact .nil
    | cons _ _ ih => exact .cons ⟨_, rfl⟩ ih

/-- Raised widths fit the texts that they are raised for and every row that fitted before. -/
theorem fitsColumns_widen (hlength : texts.length = widths.length) :
    FitsColumns (widen widths texts) texts ∧ ∀ ts, FitsColumns widths ts →
    FitsColumns (widen widths texts) ts := by
  induction widths generalizing texts with
  | nil =>
    rw [List.length_eq_zero_iff.1 hlength]
    exact ⟨.nil, fun _ => id⟩
  | cons w widths ih =>
    cases texts with
    | nil => cases hlength
    | cons t texts =>
      obtain ⟨hfits, hbefore⟩ := ih (Nat.succ.inj hlength)
      refine ⟨.cons (Nat.le_max_right _ _) hfits, fun ts hts => ?_⟩
      cases hts with
      | cons ht hts => exact .cons (Nat.le_trans ht (Nat.le_max_left _ _)) (hbefore _ hts)

theorem fitsColumns_foldl_widen {rows : List (List String)}
    (h : ∀ row ∈ rows, row.length = widths.length) :
    (∀ row ∈ rows, FitsColumns (rows.foldl widen widths) row) ∧
      ∀ ts, FitsColumns widths ts → FitsColumns (rows.foldl widen widths) ts := by
  induction rows generalizing widths with
  | nil => exact ⟨nofun, fun _ => id⟩
  | cons row rows ih =>
    obtain ⟨hrow, hrows⟩ := List.forall_mem_cons.1 h
    obtain ⟨hfits, hbefore⟩ := fitsColumns_widen hrow
    obtain ⟨hrest, hafter⟩ := ih fun r hr => (hrows r hr).trans (hrow.symm.trans hfits.length_eq)
    exact ⟨List.forall_mem_cons.2 ⟨hafter _ hfits, hrest⟩, fun ts hts => hafter ts (hbefore ts hts)⟩

/-! ## Cells -/

theorem cellTexts_ok {n : Nat} {cells : List Value}
    (h : List.Forall₂ (fun c t => s.text c = .ok t) cells texts) (hn : texts.length ≤ n) :
    cellTexts n cells s = .ok texts s := by
  induction h generalizing n with
  | nil => cases n <;> rfl
  | cons hc _ ih =>
    obtain ⟨n, rfl⟩ := Nat.exists_eq_add_of_le' (Nat.one_le_of_lt hn)
    exact (bind_ok (text_ok hc)).trans (bind_ok (ih (Nat.le_of_succ_le_succ hn)))

theorem cellTexts_still (n : Nat) (cells : List Value) :
    Policy.still.Ensures (cellTexts n cells) fun _ => cells.length ≤ n := by
  induction cells generalizing n with
  | nil => cases n <;> exact .pure (Nat.zero_le _)
  | cons c cells ih =>
    cases n with
    | zero => exact .throw trivial
    | succ n => exact (text_still c).seq <| (ih n).bind fun _ h => .pure (Nat.succ_le_succ h)

variable {rows : List Loc} {n : Nat}

theorem rowTexts_ok {cells : List (List String)} (h : List.Forall₂ (Shows s) rows cells)
    (hn : ∀ texts ∈ cells, texts.length ≤ n) :
    (rows.map Value.array).mapM (rowTexts n) s = .ok cells s := by
  induction h with
  | nil => rfl
  | cons hrow _ ih =>
    obtain ⟨hone, hrest⟩ := List.forall_mem_cons.1 hn
    rw [List.map_cons, List.mapM_cons]
    exact (bind_ok (cellTexts_ok hrow hone)).trans (bind_ok (ih hrest))

theorem rowTexts_error (h : ∃ row ∈ rows, n < (s.heap.items row).size) :
    ∃ e, (rows.map Value.array).mapM (rowTexts n) s = .error e s := by
  induction rows with
  | nil => simp at h
  | cons row rows ih =>
    rw [List.map_cons, List.mapM_cons]
    rcases (cellTexts_still n (s.heap.items row).toList).cases (s := s) trivial with
      ⟨e, _, hrun, rfl, -⟩ | ⟨texts, _, hrun, rfl, hroom⟩
    · exact ⟨e, bind_error hrun⟩
    · rw [List.exists_mem_cons_iff, or_iff_right (Nat.not_lt.2 (by simpa using hroom))] at h
      obtain ⟨e, he⟩ := ih h
      exact ⟨e, (bind_ok hrun).trans (bind_error he)⟩

theorem mapM_texts {α : Type} (f : Value → Routine α) (g : String → α)
    (h : ∀ t, f (.text t) = pure (g t)) : (names.map Value.text).mapM f = pure (names.map g) := by
  rw [List.mapM_map, show f ∘ Value.text = fun t => pure (g t) from funext h, List.mapM_pure]

/-- A table is printed when the texts of all cells are known. -/
theorem printTable_eq {headers table : Loc}
    (hheaders : s.heap.items headers = (names.map Value.text).toArray)
    (htable : s.heap.items table = (rows.map Value.array).toArray) :
    printTable (.array headers) (.array table) s = (do
      let cells ← (rows.map Value.array).mapM (rowTexts names.length)
      printLines (tableLines names cells)) s := by
  have hheads : iterate (.array headers) s = .ok (names.map Value.text) s := by
    show EStateM.Result.ok (s.heap.items headers).toList s = _
    rw [hheaders]
  have hrows : iterate (.array table) s = .ok (rows.map Value.array) s := by
    show EStateM.Result.ok (s.heap.items table).toList s = _
    rw [htable]
  unfold printTable
  rw [bind_ok hheads, mapM_texts length String.length fun _ => rfl, mapM_texts _ id fun _ => rfl,
    List.map_id, List.length_map]
  exact (bind_ok rfl).trans (bind_ok hrows)

/-- All lines of a box have the length of the longest line of the text and four more, and show the
lines of the text in order. All lines of a table have one length, and its columns stand at the same
places in every row. Nothing is printed where a row has too many cells. -/
theorem boxes_and_tables_line_up (s : Setting) :
    (∀ text, ∃ edge rows, printBox (.text text) s = .ok () (printing s (edge :: rows ++ [edge])) ∧
      (∀ line ∈ edge :: rows, line.length = ((Text.split "\n" text).map String.length).foldl
        max 0 + 4) ∧
      List.Forall₂ (fun line row => ∃ padded, Padded line padded ∧ row = "| " ++ padded ++ " |")
        (Text.split "\n" text) rows) ∧
    ∀ headers names table rows, s.heap.items headers = (names.map Value.text).toArray →
      s.heap.items table = (rows.map Value.array).toArray →
      (∀ cells, List.Forall₂ (Shows s) rows cells → (∀ texts ∈ cells, texts.length = names.length) →
        ∃ widths header rule lines,
          printTable (.array headers) (.array table) s =
            .ok () (printing s (header :: rule :: lines)) ∧
          (∀ line ∈ rule :: lines, line.length = header.length) ∧
          List.Forall₂ (InColumns widths) (names :: cells) (header :: lines)) ∧
      ((∃ row ∈ rows, names.length < (s.heap.items row).size) →
        ∃ e, printTable (.array headers) (.array table) s = .error e s) := by
  refine ⟨fun text => ⟨_, _, printLines_eq s _, ?_, ?_⟩,
    fun headers names table rows hheaders htable =>
    ⟨fun cells hcells hcount => ?_, fun h => ?_⟩⟩
  · exact List.forall_mem_cons.2 ⟨length_framed rfl rfl (length_times_dash _), List.forall_mem_map.2
      fun line h =>
      length_framed rfl rfl (length_padRight (le_foldl_max 0 (.inr (List.mem_map_of_mem h))))⟩
  · exact List.forall₂_map_right_iff.2 (List.forall₂_same.2 fun line _ => ⟨_, ⟨_, rfl⟩, rfl⟩)
  · have hlengths : ∀ texts ∈ cells, texts.length = (names.map String.length).length := by
      simpa using hcount
    obtain ⟨hrows, hbefore⟩ := fitsColumns_foldl_widen hlengths
    have hnames :=
      hbefore names (List.forall₂_map_right_iff.2 (List.forall₂_same.2 fun _ _ => Nat.le_refl _))
    have hrun := (printTable_eq hheaders htable).trans
      (bind_ok (rowTexts_ok hcells fun texts h => Nat.le_of_eq (hcount texts h)))
    refine ⟨_, _, _, _, hrun.trans (printLines_eq s _), ?_, .cons hnames.inColumns ?_⟩
    · refine List.forall_mem_cons.2 ⟨length_times_dash _, List.forall_mem_map.2 fun texts h => ?_⟩
      exact (hrows texts h).inColumns.length_eq hnames.inColumns
    · exact List.forall₂_map_right_iff.2 (List.forall₂_same.2 fun texts h =>
        (hrows texts h).inColumns)
  · obtain ⟨e, he⟩ := rowTexts_error h
    exact ⟨e, (printTable_eq hheaders htable).trans (bind_error he)⟩

/-- A setting with two headers, a table and its row. -/
def oneRow : Setting where
  heap :=
    { cells := #[.array #[.text "id", .text "name"], .array #[.array 2],
      .array #[.int 1, .text "tea"]] }

theorem oneRow_lines_up : ∃ widths header rule lines,
    printTable (.array 0) (.array 1) oneRow = .ok () (printing oneRow (header :: rule :: lines)) ∧
    (∀ line ∈ rule :: lines, line.length = header.length) ∧
    List.Forall₂ (InColumns widths) [["id", "name"], ["1", "tea"]] (header :: lines) := by
  have hcells : List.Forall₂ (Shows oneRow) [2] [["1", "tea"]] :=
    .cons (.cons rfl (.cons rfl .nil)) .nil
  exact ((boxes_and_tables_line_up oneRow).2 0 ["id", "name"] 1 [2] rfl rfl).1 _ hcells (by simp)

end ScriptLang.Package
