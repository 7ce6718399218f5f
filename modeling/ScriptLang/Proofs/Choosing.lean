import Mathlib.Algebra.Group.Int.Defs
import ScriptLang.Package.Terminal
import ScriptLang.Proofs.Combining

/-!
# Choosing from a list

`choice` and `menu` ask for the number of an option, line by line, until one reads as a number in
range. They refuse the same lines with the same words and stop at the same one. They differ in what
they give for it, and in how they end when the input does.
-/

namespace ScriptLang.Package

open ScriptLang.Action

theorem length_after_line (c : Char) (cs : List Char) :
    (((c :: cs).dropWhile (· ≠ '\n')).drop 1).length ≤ cs.length := by
  have := (List.dropWhile_suffix (l := c :: cs) (· ≠ '\n')).length_le
  rw [List.length_drop]
  exact Nat.sub_le_of_le_add this

/-- The lines of an input. The last one may lack its line end. -/
def inputLines : List Char → List String
  | [] => []
  | c :: cs => String.ofList ((c :: cs).takeWhile (· ≠ '\n')) ::
      inputLines (((c :: cs).dropWhile (· ≠ '\n')).drop 1)
termination_by input => input.length
decreasing_by exact Nat.lt_succ_of_le (length_after_line c cs)

/-- A line reads as the number of an option. -/
def Picks (count : Nat) (line : String) (k : Int) : Prop :=
  wholeOfText line = .ok k ∧ 1 ≤ k ∧ k ≤ count

/-- What is said of a line that picks no option. -/
def complaint (count : Nat) (line : String) : String :=
  match wholeOfText line with
  | .ok _ => s!"Please enter a number between 1 and {count}"
  | .error _ => "Please enter a valid number"

/-- What is printed while lines are refused. -/
def refusals (prompt : String) (count : Nat) (refused : List String) : String :=
  String.join (refused.map fun line => prompt ++ complaint count line ++ "\n")

/-- After those refusals and one more question. -/
def asking (s : Setting) (prompt : String) (count : Nat) (refused : List String)
    (input : List Char) : Setting :=
  { s with input, out := s.out ++ refusals prompt count refused ++ prompt }

variable {s s' : Setting} {e : Halt} {l : Loc} {line : String} {refused rest : List String}
  (prompt : String)

theorem length_inputLines_le (input : List Char) : (inputLines input).length ≤ input.length := by
  fun_induction inputLines input with
  | case1 => exact Nat.le_refl _
  | case2 c cs ih => exact Nat.succ_le_succ (Nat.le_trans ih (length_after_line c cs))

/-- The line that the user types to interrupt. -/
def interruptLine : String := String.ofList [Char.ofNat 3]

/-- A line that is there is read. -/
theorem readLine_ok (h : inputLines s.input = line :: rest) (hline : line ≠ interruptLine) :
    ∃ input, inputLines input = rest ∧ readLine s = .ok line { s with input } := by
  cases hinput : s.input with
  | nil => rw [hinput, inputLines] at h; cases h
  | cons c cs =>
    rw [hinput, inputLines] at h
    obtain ⟨rfl, rfl⟩ := List.cons.inj h
    refine ⟨_, rfl, ?_⟩
    have hne : ¬ ((c :: cs).takeWhile (· ≠ '\n') == [Char.ofNat 3]) = true := fun heq =>
      hline (congrArg String.ofList (beq_iff_eq.1 heq))
    show (get >>= _ : Routine String) s = _
    rw [bind_ok (show (get : Routine Setting) s = .ok s s from rfl), hinput]
    refine (bind_ok rfl).trans ?_
    rw [if_neg hne]
    rfl

theorem askOption_refuses (n : Nat) (h : inputLines s.input = refused ++ rest)
    (hbreak : interruptLine ∉ refused)
    (hno : ∀ line ∈ refused, ∀ k, ¬ Picks (s.heap.items l).size line k) :
    ∃ input, inputLines input = rest ∧ askOption prompt (.array l) (refused.length + n) s =
      askOption prompt (.array l) n
        { s with input, out := s.out ++ refusals prompt (s.heap.items l).size refused } := by
  induction refused generalizing s with
  | nil => exact ⟨s.input, h, by simp [refusals, String.join_nil]⟩
  | cons line refused ih =>
    rw [List.mem_cons, not_or] at hbreak
    obtain ⟨hline, hlines⟩ := List.forall_mem_cons.1 hno
    obtain ⟨input, hinput, hread⟩ := readLine_ok (s := { s with out := s.out ++ prompt }) h
      (Ne.symm hbreak.1)
    let said := prompt ++ complaint (s.heap.items l).size line ++ "\n"
    obtain ⟨input', hinput', hask⟩ :=
      ih (s := { s with input, out := s.out ++ said }) hinput hbreak.2 hlines
    have hout : s.out ++ refusals prompt (s.heap.items l).size (line :: refused) =
        s.out ++ said ++ refusals prompt (s.heap.items l).size refused := by
      simp [refusals, said, String.join_cons, String.append_assoc]
    refine ⟨input', hinput', ?_⟩
    rw [hout, ← hask, List.length_cons, Nat.add_right_comm, askOption]
    refine (bind_ok rfl).trans ((bind_ok hread).trans ?_)
    have hsaid (text : String) : s.out ++ prompt ++ (text ++ "\n") = s.out ++
        (prompt ++ text ++ "\n") := by
      simp [String.append_assoc]
    cases hk : wholeOfText line with
    | error e =>
      refine (bind_ok rfl).trans ?_
      simp only [hsaid, said, complaint, hk]
    | ok k =>
      have hrange : ¬ (decide (1 ≤ k) && decide (k ≤ ((s.heap.items l).size : Int))) = true := by
        simpa using fun h h' => hline k ⟨hk, h, h'⟩
      refine (bind_ok rfl).trans ?_
      rw [if_neg hrange]
      refine (bind_ok rfl).trans ?_
      simp only [hsaid, said, complaint, hk]

/-- The question is answered by the first line that picks an option. -/
theorem askOption_picks {k : Int} (h : inputLines s.input = refused ++ line :: rest)
    (hbreak : interruptLine ∉ inputLines s.input)
    (hno : ∀ line ∈ refused, ∀ k, ¬ Picks (s.heap.items l).size line k)
    (hpick : Picks (s.heap.items l).size line k) :
    ∃ input, inputLines input = rest ∧ askOption prompt (.array l) (s.input.length + 1) s =
      .ok (k - 1) (asking s prompt (s.heap.items l).size refused input) := by
  rw [h, List.mem_append, List.mem_cons, not_or, not_or] at hbreak
  have hlen := length_inputLines_le s.input
  rw [h, List.length_append] at hlen
  obtain ⟨n, hn⟩ := Nat.exists_eq_add_of_le (Nat.le_trans (Nat.le_add_right _ _) hlen)
  obtain ⟨input, hinput, hask⟩ := askOption_refuses prompt (n + 1) h hbreak.1 hno
  obtain ⟨input', hinput', hread⟩ := readLine_ok (s := { s with
    input, out := s.out ++ refusals prompt (s.heap.items l).size refused ++ prompt }) hinput
      (Ne.symm hbreak.2.1)
  refine ⟨input', hinput', ?_⟩
  rw [hn, Nat.add_assoc, hask, askOption]
  refine (bind_ok rfl).trans ((bind_ok hread).trans ?_)
  have hrange : (decide (1 ≤ k) && decide (k ≤ ((s.heap.items l).size : Int))) = true := by
    simpa using hpick.2
  simp only [hpick.1]
  refine (bind_ok rfl).trans ?_
  rw [if_pos hrange]
  rfl

/-- Without such a line, the question goes on to the end of the input. -/
theorem askOption_ends (hbreak : interruptLine ∉ inputLines s.input)
    (hno : ∀ line ∈ inputLines s.input, ∀ k, ¬ Picks (s.heap.items l).size line k) :
    askOption prompt (.array l) (s.input.length + 1) s =
      .error (.fault (.other .endOfInput "EOF when reading a line"))
        (asking s prompt (s.heap.items l).size (inputLines s.input) []) := by
  obtain ⟨n, hn⟩ := Nat.exists_eq_add_of_le (length_inputLines_le s.input)
  obtain ⟨input, hinput, hask⟩ :=
    askOption_refuses prompt (n + 1) (List.append_nil _).symm hbreak hno
  obtain rfl : input = [] := by
    cases input with
    | nil => rfl
    | cons c cs => rw [inputLines] at hinput; cases hinput
  rw [hn, Nat.add_assoc, hask, askOption]
  exact (bind_ok rfl).trans (bind_error rfl)

/-! ## The menus -/

/-- What `choice` shows before it asks. -/
def showChoice (prompt options : Value) : Routine Unit := do
  printLine (← text prompt)
  printOptions options

/-- What `menu` shows before it asks. -/
def showMenu (heading options : Value) : Routine Unit := do
  printLine ("\n" ++ (← text heading))
  printSeparator (.text "-") (.int 50)
  printOptions options
  printSeparator (.text "-") (.int 50)

/-- A routine only prints. -/
abbrev Prints {α : Type} (x : Routine α) : Prop :=
  (Policy.keeping fun s : Setting => { s with out := "" }).Ensures x fun _ => True

theorem printLine_prints (line : String) : Prints (printLine line) :=
  .change fun _ _ => ⟨trivial, rfl⟩

theorem text_prints (v : Value) : Prints (text v) :=
  (text_still v).of_still fun _ => trivial

theorem printOptions_prints (options : Value) : Prints (printOptions options) := by
  refine ((iterate_still options).of_still fun _ => trivial).seq <| .give (Q := fun _ => True) ?_
  refine .foldlM trivial fun x _ i _ => ?_
  exact (text_prints x).seq (printLine_prints _).give

theorem showChoice_prints (prompt options : Value) : Prints (showChoice prompt options) :=
  (text_prints prompt).seq <| (printLine_prints _).seq <| printOptions_prints options

theorem showMenu_prints (heading options : Value) : Prints (showMenu heading options) := by
  have hseparator : Prints (printSeparator (.text "-") (.int 50)) :=
    ⟨fun _ _ => ⟨trivial, rfl, trivial⟩⟩
  exact (text_prints heading).seq <| (printLine_prints _).seq <| hseparator.seq <|
    (printOptions_prints options).seq hseparator

theorem Prints.eq {α : Type} {x : Routine α} {a : α} (h : Prints x) (hrun : x s = .ok a s') :
    s' = { s with out := s'.out } :=
  congrArg (fun r : Setting => { r with out := s'.out }) (h.rel_of_ok trivial hrun)

theorem Prints.eq_of_error {α : Type} {x : Routine α} (h : Prints x) (hrun : x s = .error e s') :
    s' = { s with out := s'.out } :=
  congrArg (fun r : Setting => { r with out := s'.out }) (h.rel_of_error trivial hrun)

theorem tryCatch_error {x : Routine Value} {handler : Halt → Routine Value}
    (h : x s = .error e s') : tryCatch x handler s = handler e s' := by
  show EStateM.tryCatch x handler s = _
  unfold EStateM.tryCatch
  rw [h]
  rfl

theorem tryCatch_ok {x : Routine Value} {handler : Halt → Routine Value} {v : Value}
    (h : x s = .ok v s') : tryCatch x handler s = .ok v s' := by
  show EStateM.tryCatch x handler s = _
  unfold EStateM.tryCatch
  rw [h]

section

variable {prompt heading v : Value} {s₁ s₂ : Setting} {i : Int} {f : Fault} {count : Nat}

theorem askChoice_ok (hshow : showChoice prompt (.array l) s = .ok () s₁)
    (hask : askOption "Enter choice number: " (.array l) (s₁.input.length + 1) s₁ = .ok i s')
    (hitem : getItem (.array l) (.int i) s' = .ok v s') :
    askChoice prompt (.array l) s = .ok v s' := by
  simp only [showChoice, ← bind_assoc] at hshow
  simp only [askChoice, ← bind_assoc]
  rw [bind_ok hshow]
  refine tryCatch_ok ((bind_ok (show _ = EStateM.Result.ok i s' from ?_)).trans hitem)
  exact (bind_ok rfl).trans hask

theorem askChoice_cancelled (hshow : showChoice prompt (.array l) s = .ok () s₁)
    (hask : askOption "Enter choice number: " (.array l) (s₁.input.length + 1) s₁ =
      .error (.fault f) s') (hf : f.kind = .endOfInput) :
    askChoice prompt (.array l) s =
      .error (.exit (.int 0)) { s' with out := s'.out ++ ("\nInput cancelled" ++ "\n") } := by
  simp only [showChoice, ← bind_assoc] at hshow
  simp only [askChoice, ← bind_assoc]
  rw [bind_ok hshow]
  refine (tryCatch_error (show _ = EStateM.Result.error (.fault f) s' from ?_)).trans ?_
  · exact bind_error ((bind_ok rfl).trans hask)
  show (if f.kind = .endOfInput then _ else _ : Routine Value) s' = _
  rw [if_pos hf]
  rfl

theorem menu_ok (hshow : showMenu heading (.array l) s = .ok () s₂)
    (hask : askOption "Select option: " (.array l) (s₂.input.length + 1) s₂ = .ok i s') :
    menu heading (.array l) s = .ok (.int i) s' := by
  simp only [showMenu, ← bind_assoc] at hshow
  simp only [menu, ← bind_assoc]
  rw [bind_ok hshow]
  refine tryCatch_ok ?_
  exact bind_ok ((bind_ok rfl).trans hask)

theorem menu_fault (hshow : showMenu heading (.array l) s = .ok () s₂)
    (hask : askOption "Select option: " (.array l) (s₂.input.length + 1) s₂ =
      .error (.fault f) s') : menu heading (.array l) s = .error (.fault f) s' := by
  simp only [showMenu, ← bind_assoc] at hshow
  simp only [menu, ← bind_assoc]
  rw [bind_ok hshow]
  refine (tryCatch_error (show _ = EStateM.Result.error (.fault f) s' from ?_)).trans rfl
  exact bind_error ((bind_ok rfl).trans hask)

/-- What cannot be shown is not asked: the call fails before a line is read. -/
theorem askChoice_unshown (hshow : showChoice prompt (.array l) s = .error e s') :
    askChoice prompt (.array l) s = .error e s' ∧ s' = { s with out := s'.out } := by
  refine ⟨?_, (showChoice_prints prompt (.array l)).eq_of_error hshow⟩
  simp only [showChoice, ← bind_assoc] at hshow
  simp only [askChoice, ← bind_assoc]
  exact bind_error hshow

theorem menu_unshown (hshow : showMenu heading (.array l) s = .error e s') :
    menu heading (.array l) s = .error e s' ∧ s' = { s with out := s'.out } := by
  refine ⟨?_, (showMenu_prints heading (.array l)).eq_of_error hshow⟩
  simp only [showMenu, ← bind_assoc] at hshow
  simp only [menu, ← bind_assoc]
  exact bind_error hshow

/-- Both menus choose alike. Once the options are shown, the lines that pick no option are refused
one by one, and the first line that picks one is the answer: `choice` gives the option and `menu`
its index, and the lines after it are left. If no line picks an option, all are refused; then
`choice` ends the program and `menu` fails. Where the options or what stands above them cannot be
shown, either fails with that before it reads a line. -/
theorem both_menus_choose_alike (hcount : (s.heap.items l).size = count)
    (hsmall : (count : Int) ≤ indexLimit) (hbreak : interruptLine ∉ inputLines s.input)
    (hchoice : showChoice prompt (.array l) s = .ok () s₁)
    (hmenu : showMenu heading (.array l) s = .ok () s₂) :
    (∀ refused line rest k, inputLines s.input = refused ++ line :: rest →
      (∀ line ∈ refused, ∀ k, ¬ Picks count line k) → Picks count line k →
      ∃ v input input', (s.heap.items l)[(k - 1).toNat]? = some v ∧
        inputLines input = rest ∧ inputLines input' = rest ∧
        askChoice prompt (.array l) s =
          .ok v (asking s₁ "Enter choice number: " count refused input) ∧
        menu heading (.array l) s = .ok (.int (k - 1))
          (asking s₂ "Select option: " count refused input')) ∧
    ((∀ line ∈ inputLines s.input, ∀ k, ¬ Picks count line k) → ∃ asked,
      asked = asking s₁ "Enter choice number: " count (inputLines s.input) [] ∧
      askChoice prompt (.array l) s = .error (.exit (.int 0))
        { asked with out := asked.out ++ "\nInput cancelled\n" } ∧
      menu heading (.array l) s = .error (.fault (.other .endOfInput "EOF when reading a line"))
        (asking s₂ "Select option: " count (inputLines s.input) [])) ∧
    ∀ above k s e s', (showChoice above (.array k) s = .error e s' →
        askChoice above (.array k) s = .error e s' ∧ s' = { s with out := s'.out }) ∧
      (showMenu above (.array k) s = .error e s' →
        menu above (.array k) s = .error e s' ∧ s' = { s with out := s'.out }) := by
  obtain ⟨o₁, rfl⟩ : ∃ out, s₁ = { s with out } := ⟨_, (showChoice_prints _ _).eq hchoice⟩
  obtain ⟨o₂, rfl⟩ : ∃ out, s₂ = { s with out } := ⟨_, (showMenu_prints _ _).eq hmenu⟩
  subst hcount
  refine ⟨fun refused line rest k hinput hno hpick => ?_, fun hno => ⟨_, rfl, ?_, ?_⟩,
    fun above k s e s' => ⟨askChoice_unshown, menu_unshown⟩⟩
  · obtain ⟨input, hrest, hask⟩ := askOption_picks "Enter choice number: "
      (s := { s with out := o₁ }) hinput hbreak hno hpick
    obtain ⟨input', hrest', hask'⟩ := askOption_picks "Select option: "
      (s := { s with out := o₂ }) hinput hbreak hno hpick
    obtain ⟨i, hi⟩ : ∃ i : Nat, k - 1 = i := ⟨(k - 1).toNat, by have := hpick.2.1; omega⟩
    have hlt : i < (s.heap.items l).size := by have := hpick.2.2; omega
    rw [hi] at hask hask' ⊢
    have hitem := Array.getElem?_eq_getElem hlt
    refine ⟨_, input, input', hitem, hrest, hrest', ?_, menu_ok hmenu hask'⟩
    exact askChoice_ok hchoice hask (getItem_item hitem (by omega))
  · exact askChoice_cancelled hchoice (askOption_ends _ (s := { s with out := o₁ }) hbreak hno) rfl
  · exact menu_fault hmenu (askOption_ends _ (s := { s with out := o₂ }) hbreak hno)

/-- Two options, and two lines that are refused before the answer. -/
def twoOptions : Setting where
  heap := { cells := #[.array #[.text "tea", .text "milk"]] }
  input := "no\n3\n2\nmore".toList

theorem twoOptions_chosen : ∃ s₁ s₂ v input input',
    showChoice (.text "Drink?") (.array 0) twoOptions = .ok () s₁ ∧
    showMenu (.text "Drinks") (.array 0) twoOptions = .ok () s₂ ∧ some v = some (.text "milk") ∧
    inputLines input = ["more"] ∧ inputLines input' = ["more"] ∧
    askChoice (.text "Drink?") (.array 0) twoOptions =
      .ok v (asking s₁ "Enter choice number: " 2 ["no", "3"] input) ∧
    menu (.text "Drinks") (.array 0) twoOptions =
      .ok (.int 1) (asking s₂ "Select option: " 2 ["no", "3"] input') := by
  have hlines : inputLines twoOptions.input = ["no", "3"] ++ "2" :: ["more"] := by
    simp [twoOptions, inputLines]
  have hno : ∀ line ∈ ["no", "3"], ∀ k, ¬ Picks 2 line k := by
    have hthree : wholeOfText "3" = .ok 3 := rfl
    have hword : (wholeOfText "no").isOk = false := by decide +kernel
    rintro line hline k ⟨hk, -, hle⟩
    rcases List.mem_cons.1 hline with rfl | hline
    · rw [hk] at hword
      cases hword
    · obtain rfl := List.mem_singleton.1 hline
      cases hthree.symm.trans hk
      exact absurd hle (by decide)
  have hchoice : showChoice (.text "Drink?") (.array 0) twoOptions = .ok () _ := rfl
  have hmenu : showMenu (.text "Drinks") (.array 0) twoOptions = .ok () _ := rfl
  obtain ⟨v, input, input', hv, hrest⟩ :=
    (both_menus_choose_alike rfl (by decide) (by rw [hlines]; decide)
    hchoice hmenu).1 _ _ _ 2 hlines hno ⟨rfl, by decide, by decide⟩
  exact ⟨_, _, v, input, input', hchoice, hmenu, hv.symm, hrest⟩

theorem text_int_error {n : Int} (h : Number.wholeText? n = none) :
    s.text (.int n) = .error .tooManyDigits := by
  show s.quote valueDepth [] (.int n) = _
  simp only [valueDepth, Setting.quote, h]

/-- A prompt with too many digits cannot be shown, and then nothing is asked. -/
theorem long_prompt_asks_nothing : Picks (twoOptions.heap.items 0).size "2" 2 ∧
    askChoice (.int (10 ^ 4300)) (.array 0) twoOptions = .error (.fault .tooManyDigits)
      twoOptions := by
  have hnumber : Number.wholeText? (10 ^ 4300) = none := by decide +kernel
  refine ⟨⟨rfl, by decide, by decide⟩, bind_error (text_error ?_)⟩
  exact text_int_error hnumber

end

end ScriptLang.Package
