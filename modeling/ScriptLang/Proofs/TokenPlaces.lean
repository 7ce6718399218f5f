import ScriptLang.Proofs.Layout
import ScriptLang.Proofs.Pieces

/-!
# The places of tokens

A token is reported at the column of its first character and at the line of its last one. The two
are the place of one character unless the token runs over the end of a line, as texts and directives
may. All other tokens are reported where they begin, and before all that come later.
-/

namespace ScriptLang

/-! ## Lines and columns -/

/-- The line of what comes after some characters: one more than the line ends in them. -/
def lineAfter (cs : List Char) : Nat :=
  1 + cs.count '\n'

/-- The column of what comes after some characters: one more than the characters since the last line
end. -/
def colAfter (cs : List Char) : Nat :=
  1 + (cs.reverse.takeWhile (· ≠ '\n')).length

theorem after_eq (cs : List Char) : Place.after {} cs = ⟨cs.length, lineAfter cs, colAfter cs⟩ := by
  induction cs using List.reverseRecOn with
  | nil => rfl
  | append_singleton cs c ih =>
    rw [Place.after, List.foldl_append]
    show (Place.after {} cs).step c = _
    rw [ih, Place.step]
    by_cases hc : c = '\n'
    · subst hc
      simp [lineAfter, colAfter, Nat.add_assoc]
    · simp [lineAfter, colAfter, hc, Nat.add_comm]

variable {u v : List Char}

theorem lineAfter_append (u v : List Char) : lineAfter (u ++ v) = lineAfter u + v.count '\n' := by
  rw [lineAfter, lineAfter, List.count_append, Nat.add_assoc]

theorem colAfter_append (h : '\n' ∉ v) : colAfter (u ++ v) = colAfter u + v.length := by
  have hpass : ∀ c ∈ v.reverse, decide (c ≠ '\n') = true := by
    intro c hc
    have hne : c ≠ '\n' := by
      rintro rfl
      exact h (List.mem_reverse.1 hc)
    simpa using hne
  rw [colAfter, colAfter, List.reverse_append, List.takeWhile_append_of_pos hpass,
    List.length_append, List.length_reverse]
  omega

/-- One place comes before another. -/
def Before (p q : Nat × Nat) : Prop :=
  p.1 < q.1 ∨ p.1 = q.1 ∧ p.2 < q.2

/-- What comes after more characters comes later. -/
theorem before_of_prefix (h : u <+: v) (hne : u ≠ v) :
    Before (lineAfter u, colAfter u) (lineAfter v, colAfter v) := by
  obtain ⟨t, rfl⟩ := h
  by_cases hline : '\n' ∈ t
  · left
    have := List.count_pos_iff.2 hline
    rw [lineAfter_append]
    omega
  · right
    have hpos : 0 < t.length := by
      rw [List.length_pos_iff]
      rintro rfl
      exact hne (List.append_nil u).symm
    rw [lineAfter_append, List.count_eq_zero_of_not_mem hline, colAfter_append hline]
    exact ⟨rfl, Nat.lt_add_of_pos_right hpos⟩

/-! ## Tokens in a source -/

/-- A token and what it was read from. -/
structure Span (source : List Char) where
  token : Token
  before : List Char
  taken : List Char
  rest : List Char
  parts : before ++ taken ++ rest = source
  read : ∀ p, readLexeme p (taken ++ rest) = .ok ⟨taken, token.lexeme, rest⟩

/-- The place at which a token is reported. -/
def Token.place (t : Token) : Nat × Nat :=
  (t.line, t.col)

namespace Span

variable {source : List Char} {s s' : Span source}

/-- The place of the first character of a token. -/
def start (s : Span source) : Nat × Nat :=
  (lineAfter s.before, colAfter s.before)

/-- A token is reported at the column where it starts and at the line where it ends. -/
structure Reported (s : Span source) : Prop where
  line : s.token.line = lineAfter (s.before ++ s.taken)
  col : s.token.col = colAfter s.before

theorem Reported.place_eq_iff (h : s.Reported) : s.token.place = s.start ↔ '\n' ∉ s.taken := by
  rw [Token.place, start, h.line, h.col, lineAfter_append]
  constructor
  · intro heq hline
    have := List.count_pos_iff.2 hline
    have := congrArg Prod.fst heq
    dsimp only at this
    omega
  · intro hline
    rw [List.count_eq_zero_of_not_mem hline]
    rfl

theorem mayRunOver (s : Span source) (hline : '\n' ∈ s.taken) :
    s.token.lexeme.mayRunOver = true := by
  have hread := s.read {}
  cases hsource : s.taken ++ s.rest with
  | nil =>
    rw [(List.append_eq_nil_iff.1 hsource).1] at hline
    cases hline
  | cons c cs =>
    rw [hsource] at hread
    exact (readLexeme_iff.1 hread).mayRunOver hline

theorem before_start (hlater : s.before ++ s.taken <+: s'.before) (hne : s.taken ≠ []) :
    Before s.start s'.start := by
  refine before_of_prefix ((List.prefix_append _ _).trans hlater) ?_
  intro heq
  rw [← heq] at hlater
  have := hlater.length_le
  rw [List.length_append] at this
  exact hne (List.length_eq_zero_iff.1 (by omega))

/-- A token without a line end in it is reported before all that come later. -/
theorem Reported.before (h : s.Reported) (h' : s'.Reported) (hstart : Before s.start s'.start)
    (hline : '\n' ∉ s.taken) : Before s.token.place s'.token.place := by
  rw [h.place_eq_iff.2 hline]
  rcases hstart with hlt | ⟨heq, hlt⟩
  · left
    rw [Token.place, h'.line, lineAfter_append]
    exact Nat.lt_add_right _ hlt
  · by_cases hline' : '\n' ∈ s'.taken
    · left
      have := List.count_pos_iff.2 hline'
      rw [Token.place, h'.line, lineAfter_append, heq]
      exact Nat.lt_add_of_pos_right this
    · rw [h'.place_eq_iff.2 hline']
      exact .inr ⟨heq, hlt⟩

end Span

/-! ## All tokens -/

theorem after_append (p : Place) (u v : List Char) : (p.after u).after v = p.after (u ++ v) := by
  rw [Place.after, Place.after, Place.after, List.foldl_append]

/-- The tokens of a source are read from parts of it that come one after the other, the last at the
end. -/
structure Covers {source : List Char} (spans : List (Span source)) (tokens : List Token)
    (before : List Char) : Prop where
  tokens : spans.map (·.token) = tokens
  reported : ∀ s ∈ spans, s.Reported
  starts : ∀ s ∈ spans, before <+: s.before
  ordered : spans.Pairwise fun s s' => s.before ++ s.taken <+: s'.before ∧ s.taken ≠ []
  last : ∃ s, spans.getLast? = some s ∧ s.token.lexeme = .finish ∧ s.before = source

variable {source before rest : List Char} {tokens : List Token}

theorem Covers.weaken {spans : List (Span source)} (h : Covers spans tokens (before ++ rest)) :
    Covers spans tokens before :=
  { h with starts := fun s hs => (List.prefix_append _ _).trans (h.starts s hs) }

theorem covers_nil (source : List Char) :
    ∃ spans :
    List (Span source), Covers spans [⟨.finish, lineAfter source, colAfter source⟩] source := by
  let s : Span source := ⟨⟨.finish, lineAfter source, colAfter source⟩, source, [], [], by simp,
    fun _ => rfl⟩
  have hs : s.Reported := ⟨by rw [List.append_nil], rfl⟩
  refine ⟨[s], rfl, ?_, ?_, List.pairwise_singleton _ _, s, rfl, rfl, rfl⟩
  · exact fun s' hs' => List.mem_singleton.1 hs' ▸ hs
  · exact fun s' hs' => List.mem_singleton.1 hs' ▸ List.prefix_refl _

theorem Covers.cons {s : Span source} {spans : List (Span source)} (hs : s.Reported)
    (hne : s.taken ≠ []) (h : Covers spans tokens (s.before ++ s.taken)) :
    Covers (s :: spans) (s.token :: tokens) s.before where
  tokens := by rw [List.map_cons, h.tokens]
  reported := List.forall_mem_cons.2 ⟨hs, h.reported⟩
  starts := List.forall_mem_cons.2 ⟨List.prefix_refl _, h.weaken.starts⟩
  ordered := List.pairwise_cons.2 ⟨fun s' hs' => ⟨h.starts s' hs', hne⟩, h.ordered⟩
  last := by
    obtain ⟨t, hlast, hfinish⟩ := h.last
    refine ⟨t, ?_, hfinish⟩
    cases spans with
    | nil => cases hlast
    | cons s' spans => rwa [List.getLast?_cons_cons]

theorem covers_of_scanFrom {n : Nat} (hsource : before ++ rest = source) (hn : rest.length < n)
    (h : scanFrom n (Place.after {} before) rest = .ok tokens) :
    ∃ spans : List (Span source), Covers spans tokens before := by
  -- on the number of rounds, and inside it on the blanks that a round starts with
  induction n generalizing before rest tokens with
  | zero => contradiction
  | succ n ih =>
    induction rest generalizing before with
    | nil =>
      rw [List.append_nil] at hsource
      subst hsource
      rw [after_eq] at h
      cases h
      exact covers_nil before
    | cons c cs ihcs =>
      cases hc : isLayout c with
      | true =>
        rw [scanFrom_layout n _ cs hc] at h
        have hnext : before ++ [c] ++ cs = source := by simpa using hsource
        obtain ⟨spans, hspans⟩ := ihcs hnext (Nat.lt_of_succ_lt hn)
          (by rw [← after_append]; exact h)
        exact ⟨spans, hspans.weaken⟩
      | false =>
        rw [scanFrom_round n _ cs hc] at h
        split at h
        · next comment rest hcomment =>
          have hrest := splitComment_length_lt hcomment
          have hnext : before ++ comment ++ rest = source := by
            rw [List.append_assoc, splitComment_eq hcomment, hsource]
          rw [after_append] at h
          obtain ⟨spans, hspans⟩ := ih hnext (by omega) h
          exact ⟨spans, hspans.weaken⟩
        · next hcomment =>
          split at h
          · contradiction
          · next piece hread =>
            obtain ⟨later, hrun, rfl⟩ := map_eq_ok h
            have htakes := readLexeme_iff.1 hread
            have hparts := htakes.eq
            have hrest := htakes.length_lt
            have hne : piece.taken ≠ [] := by
              intro hnil
              rw [hnil, List.nil_append] at hparts
              rw [hparts] at hrest
              exact Nat.lt_irrefl _ hrest
            have hnext : before ++ piece.taken ++ piece.rest = source := by
              rw [List.append_assoc, hparts, hsource]
            rw [after_append] at hrun
            obtain ⟨spans, hspans⟩ := ih hnext (by omega) hrun
            let t : Token :=
              ⟨piece.lexeme, (Place.after {} (before ++ piece.taken)).line,
                (Place.after {} before).col⟩
            let s : Span source := ⟨t, before, piece.taken, piece.rest, hnext, fun p => by
              rw [hparts]
              exact readLexeme_iff.2 htakes⟩
            have hs : s.Reported := by
              constructor
              · show (Place.after {} (before ++ piece.taken)).line = _
                rw [after_eq]
              · show (Place.after {} before).col = _
                rw [after_eq]
            refine ⟨s :: spans, ?_⟩
            rw [after_append]
            exact Covers.cons hs hne hspans

/-- A token is reported at the column of its first character and at the line of its last one. So it
is reported where it begins exactly if it has no line end in it, as all tokens but texts and
directives; then it is reported before all that come later. The end is reported after the last
character. -/
theorem tokens_have_the_column_they_start_at_and_the_line_they_end_at {source : String}
    {tokens : List Token} (h : scan source = .ok tokens) :
    ∃ spans : List (Span source.toList), spans.map (·.token) = tokens ∧
      (∀ s ∈ spans, s.token.col = colAfter s.before ∧
        s.token.line = lineAfter (s.before ++ s.taken) ∧
        (s.token.place = s.start ↔ '\n' ∉ s.taken) ∧
        ('\n' ∈ s.taken → s.token.lexeme.mayRunOver = true)) ∧
      (spans.Pairwise fun s s' => s.before ++ s.taken <+: s'.before ∧
        Before s.start s'.start ∧ ('\n' ∉ s.taken → Before s.token.place s'.token.place)) ∧
      ∃ s, spans.getLast? = some s ∧ s.token.lexeme = .finish ∧ s.before = source.toList ∧
        s.token.place = s.start := by
  obtain ⟨spans, hspans⟩ := covers_of_scanFrom (List.nil_append source.toList : [] ++ _ = _)
    (Nat.lt_succ_self _) h
  refine ⟨spans, hspans.tokens, fun s hs => ?_, ?_, ?_⟩
  · have hreported := hspans.reported s hs
    exact ⟨hreported.col, hreported.line, hreported.place_eq_iff, s.mayRunOver⟩
  · refine hspans.ordered.imp_of_mem fun {s s'} hs hs' hlater => ?_
    have hstart := Span.before_start hlater.1 hlater.2
    exact ⟨hlater.1, hstart, (hspans.reported s hs).before (hspans.reported s' hs') hstart⟩
  · obtain ⟨s, hlast, hfinish, hend⟩ := hspans.last
    refine ⟨s, hlast, hfinish, hend, ?_⟩
    have hs := hspans.reported s (List.mem_of_getLast? hlast)
    have hnothing : s.taken = [] := by
      have hparts := s.parts
      rw [hend, List.append_assoc] at hparts
      have hnil : s.taken ++ s.rest = [] := by simpa using hparts
      exact (List.append_eq_nil_iff.1 hnil).1
    rw [hs.place_eq_iff, hnothing]
    exact List.not_mem_nil

/-- A name and a text on two lines are reported where they begin, and the end behind them. -/
theorem words_reported_at_their_start :
    scan "a\n 'b'" = .ok [⟨.name "a", 1, 1⟩, ⟨.text "b", 2, 2⟩, ⟨.finish, 2, 5⟩] ∧
    ∃ spans : List (Span "a\n 'b'".toList), spans.map (·.token.place) = [(1, 1), (2, 2), (2, 5)] ∧
      (∀ s ∈ spans, s.token.col = colAfter s.before ∧
        s.token.line = lineAfter (s.before ++ s.taken)) ∧
      spans.Pairwise fun s s' => Before s.start s'.start := by
  have hscan : scan "a\n 'b'" = .ok [⟨.name "a", 1, 1⟩, ⟨.text "b", 2, 2⟩, ⟨.finish, 2, 5⟩] := rfl
  obtain ⟨spans, htokens, hspans, hordered, -⟩ :=
    tokens_have_the_column_they_start_at_and_the_line_they_end_at hscan
  have hplaces := congrArg (List.map Token.place) htokens
  rw [List.map_map] at hplaces
  exact ⟨hscan, spans, hplaces, fun s hs => ⟨(hspans s hs).1, (hspans s hs).2.1⟩,
    hordered.imp fun h => h.2.1⟩

/-- A text over two lines is reported at the second of them, and may then be reported where the next
token is. -/
theorem text_reported_at_its_last_line :
    scan "\"a\nb\"" = .ok [⟨.text "a\nb", 2, 1⟩, ⟨.finish, 2, 3⟩] ∧ lineAfter [] = 1 ∧
    scan "a'\n'b" = .ok [⟨.name "a", 1, 1⟩, ⟨.text "\n", 2, 2⟩, ⟨.name "b", 2, 2⟩,
      ⟨.finish, 2, 3⟩] ∧
    ¬ Before (2, 2) (2, 2) :=
  ⟨rfl, rfl, rfl, by simp [Before]⟩

end ScriptLang
