import ScriptLang.Program.Parse

/-!
# What comes of a parser

Before the end of a source a parser reads some of the tokens, is refused for one of them, or runs
out of levels to nest. `Parses` says which, and what follows for its bounds: eleven levels for every
token and some more are enough. What is read is read alike wherever its lexemes stand, if the lexeme
behind them looks alike as well: a parser that ends in a symbol of its own looks no further, a
conditional has to see whether `else` comes next, and an expression has to see the next lexeme as a
whole (`Look`). And what is read is built of its lexemes as the grammar has it, which `good` says of
each rule.

Every combinator has one lemma for all of this.
-/

namespace ScriptLang

theorem Lexeme.kind_eq_symbol {l : Lexeme} {s : Symbol} : l.kind = .symbol s ↔ l = .symbol s := by
  cases l <;> simp [Lexeme.kind]

theorem Lexeme.kind_eq_keyword {l : Lexeme} {k : Keyword} :
    l.kind = .keyword k ↔ l = .keyword k := by
  cases l <;> simp [Lexeme.kind]

theorem Lexeme.kind_eq_finish {l : Lexeme} : l.kind = .finish ↔ l = .finish := by
  cases l <;> simp [Lexeme.kind]

/-- The error is about one of the tokens: it tells the kind and the place of one that should not
stand there, or an assignment is among them. -/
def ParseError.About (tokens : List Token) : ParseError → Prop
  | .expected want got line col =>
      got ≠ want ∧ ∃ t ∈ tokens, t.kind = got ∧ t.line = line ∧ t.col = col
  | .unexpected got line col => ∃ t ∈ tokens, t.kind = got ∧ t.line = line ∧ t.col = col
  | .badTarget => ∃ t ∈ tokens, t.kind = .symbol .assign
  | .tooDeep => False

theorem ParseError.About.mono {tokens tokens' : List Token} {err : ParseError}
    (h : err.About tokens) (hsub : tokens ⊆ tokens') : err.About tokens' := by
  cases err with
  | expected want got line col =>
    obtain ⟨hne, t, ht, hplace⟩ := h
    exact ⟨hne, t, hsub ht, hplace⟩
  | unexpected got line col =>
    obtain ⟨t, ht, hplace⟩ := h
    exact ⟨t, hsub ht, hplace⟩
  | badTarget =>
    obtain ⟨t, ht, hassign⟩ := h
    exact ⟨t, hsub ht, hassign⟩
  | tooDeep => exact h

namespace Parser

/-! ## Looking ahead -/

/-- The lexeme of the token that `current` returns. -/
def next (ts : List Token) : Lexeme :=
  (ts.headD ⟨.finish, 1, 1⟩).lexeme

/-- How much a parser sees of the lexeme behind what it takes. -/
inductive Look where
  | nothing
  | elseWord
  | whole

/-- The two lexemes look alike. -/
def Look.alike : Look → Lexeme → Lexeme → Prop
  | .nothing, _, _ => True
  | .elseWord, l, l' => l.kind = .keyword .elseWord ↔ l'.kind = .keyword .elseWord
  | .whole, l, l' => l = l'

theorem Look.alike_refl (look : Look) (l : Lexeme) : look.alike l l := by
  cases look with
  | nothing => trivial
  | elseWord => exact Iff.rfl
  | whole => rfl

variable {α β : Type} {n n' m m' d c c₂ k k₁ k₂ : Nat} {look look₁ : Look} {kind : Kind}

/-- What looks alike to the first looks alike to the second. -/
class Finer (look look₁ : Look) : Prop where
  alike : ∀ l l', look.alike l l' → look₁.alike l l'

instance : Finer look look := ⟨fun _ _ h => h⟩

instance : Finer look .nothing := ⟨fun _ _ _ => trivial⟩

instance : Finer .whole look := ⟨fun l _ h => h ▸ look.alike_refl l⟩

/-- A parser that may take nothing sees whether the next lexeme is of the kind. -/
class Tells (look : Look) (k : Nat) (kind : Kind) : Prop where
  iff : k = 0 → ∀ l l', look.alike l l' → (l.kind = kind ↔ l'.kind = kind)

instance : Tells look 1 kind := ⟨nofun⟩

instance : Tells .whole k kind := ⟨fun _ _ _ h => h ▸ Iff.rfl⟩

instance : Tells .elseWord k (.keyword .elseWord) := ⟨fun _ _ _ h => h⟩

/-! ## Outcomes -/

/-- The tokens before the end of a source, and that end. -/
structure Ends (ts : List Token) (e : Token) : Prop where
  inside : ∀ t ∈ ts, t.kind ≠ .finish
  finish : e.kind = .finish

theorem Ends.of_suffix {ts rest : List Token} {e : Token} (h : Ends ts e) (hrest : rest <:+ ts) :
    Ends rest e :=
  ⟨fun t ht => h.inside t (hrest.subset ht), h.finish⟩

/-- Behind the tokens of a source stands the one that ends it, or none. -/
def From (e : Token) (us : List Token) : Prop :=
  us.headD ⟨.finish, 1, 1⟩ = e

theorem from_cons (e : Token) (us : List Token) : From e (e :: us) :=
  rfl

variable {ts us : List Token} {e : Token} {room room' : Prop} {good good₁ : List Lexeme → α → Prop}
  {p q : Parser α}

/-- Where the lexemes of `cs` stand once more and what is behind them looks like `l`, `q` reads
`x`. -/
def Rereads (n : Nat) (look : Look) (cs : List Token) (l : Lexeme) (x : α) (q : Parser α) : Prop :=
  ∀ cs' us' : List Token, cs'.map (·.lexeme) = cs.map (·.lexeme) → cs'.length < n →
    look.alike l (next us') → q.run (cs' ++ us') = .ok (x, us')

/-- What comes of `p` on the tokens `ts` before the end `e`, whatever is behind it, and of `q` with
it, which is `p` with other bounds. -/
inductive Outcome (room : Prop) (n' k : Nat) (look : Look) (good : List Lexeme → α → Prop)
    (ts : List Token) (e : Token) (p q : Parser α) : Prop
  | deep : ¬ room → (∀ us, From e us → p.run (ts ++ us) = .error .tooDeep) →
      Outcome room n' k look good ts e p q
  | refused {err : ParseError} : err.About (ts ++ [e]) →
      (∀ us, From e us → p.run (ts ++ us) = .error err) →
      (ts.length < n' → ∀ us, From e us → q.run (ts ++ us) = .error err) →
      Outcome room n' k look good ts e p q
  | read {x : α} {cs rest : List Token} : ts = cs ++ rest → k ≤ cs.length →
      good (cs.map (·.lexeme)) x → (∀ us, From e us → p.run (ts ++ us) = .ok (x, rest ++ us)) →
      Rereads n' look cs (rest.headD e).lexeme x q → Outcome room n' k look good ts e p q

theorem run_bind_eq {p : Parser β} {g : β → Parser α} {vs : List Token} {x : β}
    (h : p.run ts = .ok (x, vs)) : (p >>= g).run ts = (g x).run vs := by
  rw [StateT.run_bind, h]
  rfl

theorem run_bind_error {p : Parser β} {g : β → Parser α} {err : ParseError}
    (h : p.run ts = .error err) : (p >>= g).run ts = .error err := by
  rw [StateT.run_bind, h]
  rfl

theorem length_of_lexemes {cs cs' : List Token} (h : cs'.map (·.lexeme) = cs.map (·.lexeme)) :
    cs'.length = cs.length := by
  simpa using congrArg List.length h

theorem next_from (hus : From e us) (ts : List Token) : next (ts ++ us) = (ts.headD e).lexeme := by
  cases ts with
  | nil => exact congrArg Token.lexeme hus
  | cons t ts => rfl

namespace Outcome

theorem mono (h : Outcome room n' k₁ look₁ good₁ ts e p q) (hroom : room' → room) (hn : m' ≤ n')
    (hk : k ≤ k₁) [Finer look look₁] (hgood : ∀ ls x, good₁ ls x → good ls x) :
    Outcome room' m' k look good ts e p q := by
  cases h with
  | deep hno hp => exact .deep (fun h => hno (hroom h)) hp
  | refused habout hp hq => exact .refused habout hp fun hlen => hq (Nat.lt_of_lt_of_le hlen hn)
  | read hts hcs hx hp hq =>
    refine .read hts (Nat.le_trans hk hcs) (hgood _ _ hx) hp fun cs' us' hlex hlen halike => ?_
    exact hq cs' us' hlex (Nat.lt_of_lt_of_le hlen hn) (Finer.alike _ _ halike)

/-- One parser after another. The second part decides what is seen of what stands behind, unless it
takes nothing. -/
theorem bind {p q : Parser β} {g h : β → Parser α} {good₁ : List Lexeme → β → Prop}
    (hp : Outcome room n' k₁ look₁ good₁ ts e p q)
    (hg : ∀ x cs rest, ts = cs ++ rest → k₁ ≤ cs.length → good₁ (cs.map (·.lexeme)) x →
      Outcome room m' k₂ look (fun ls => good (cs.map (·.lexeme) ++ ls)) rest e (g x) (h x))
    (hn : n' ≤ m' + k₁) (hk : k ≤ k₁ + k₂) (hlook : k₂ = 0 → Finer look look₁) :
    Outcome room n' k look good ts e (p >>= g) (q >>= h) := by
  cases hp with
  | deep hno hp => exact .deep hno fun us hus => run_bind_error (hp us hus)
  | refused habout hp hq =>
    exact .refused habout (fun us hus => run_bind_error (hp us hus)) fun hlen us hus =>
      run_bind_error (hq hlen us hus)
  | @read x cs rest hts hcs hx hp hq =>
    subst hts
    cases hg x cs rest rfl hcs hx with
    | deep hno hg => exact .deep hno fun us hus => (run_bind_eq (hp us hus)).trans (hg us hus)
    | refused habout hg hh =>
      refine .refused (habout.mono ?_)
        (fun us hus => (run_bind_eq (hp us hus)).trans (hg us hus)) ?_
      · exact List.append_subset.2 ⟨fun t ht => by simp [ht], by simp⟩
      · intro hlen us hus
        rw [List.length_append] at hlen
        rw [List.append_assoc, run_bind_eq (hq cs (rest ++ us) rfl (by omega) ?_)]
        · exact hh (by omega) us hus
        · rw [next_from hus]
          exact look₁.alike_refl _
    | @read y cs₂ rest₂ hrest hcs₂ hy hg hh =>
      subst hrest
      refine .read (List.append_assoc cs cs₂ rest₂).symm ?_ ?_
        (fun us hus => (run_bind_eq (hp us hus)).trans (hg us hus)) ?_
      · rw [List.length_append]
        omega
      · rw [List.map_append]
        exact hy
      · intro cs' us' hlex hlen halike
        rw [List.map_append] at hlex
        obtain ⟨cs₁', cs₂', rfl, hlex₁, hlex₂⟩ := List.map_eq_append_iff.1 hlex
        rw [List.length_append] at hlen
        have hlen₁ := length_of_lexemes hlex₁
        rw [List.append_assoc, run_bind_eq (hq cs₁' (cs₂' ++ us') hlex₁ (by omega) ?_)]
        · exact hh cs₂' us' hlex₂ (by omega) halike
        · cases cs₂ with
          | nil =>
            obtain rfl := List.map_eq_nil_iff.1 hlex₂
            have := hlook (Nat.le_zero.1 hcs₂)
            exact Finer.alike _ _ halike
          | cons t cs₂ =>
            obtain ⟨t', cs₂', rfl, ht, -⟩ := List.map_eq_cons_iff.1 hlex₂
            show look₁.alike t.lexeme t'.lexeme
            rw [ht]
            exact look₁.alike_refl _

end Outcome

/-! ## The judgement -/

/-- Any token. -/
def anyToken : Token → Prop := fun _ => True

/-- What holds of the tokens before the end holds of those that remain of them. -/
class Hereditary (I : Token → List Token → Prop) : Prop where
  of_suffix : ∀ {e ts us}, I e ts → us <:+ ts → I e us

instance : Hereditary fun _ _ => True := ⟨fun _ _ => trivial⟩

/-- The lexeme stands first among tokens of which `I` holds. -/
def Seen (I : Token → List Token → Prop) (l : Lexeme) : Prop :=
  ∃ e t ts, I e (t :: ts) ∧ t.lexeme = l

/-- Before fewer than `n` tokens of which `I` holds and the first of which satisfies `start`, `p`,
which has `d` levels left and needs `c` besides eleven for each token, takes at least `k` tokens,
sees `look` of what is behind them and makes something `good` of their lexemes, or fails; and so
does `q`, which may read fewer than `n'` tokens. -/
def Parses (I : Token → List Token → Prop) (n n' d c k : Nat) (start : Token → Prop) (look : Look)
    (good : List Lexeme → α → Prop) (p q : Parser α) : Prop :=
  ∀ ts e, Ends ts e → I e ts → ts.length < n → start (ts.headD e) →
    Outcome (11 * ts.length + c ≤ d) n' k look good ts e p q

namespace Parses

variable {I : Token → List Token → Prop} {start start' : Token → Prop}

theorem mono (h : Parses I m m' d c₂ k₁ start' look₁ good₁ p q) (hn : n ≤ m) (hn' : n' ≤ m')
    (hc : c₂ ≤ c) (hk : k ≤ k₁) (hs : ∀ t, start t → start' t) [Finer look look₁]
    (hgood : ∀ ls x, good₁ ls x → good ls x) : Parses I n n' d c k start look good p q := by
  intro ts e hends hI hlen ht
  exact (h ts e hends hI (Nat.lt_of_lt_of_le hlen hn) (hs _ ht)).mono
    (fun _ => by omega) hn' hk hgood

theorem here (h : Parses I n n' d c₂ k anyToken look good p q) (hc : c₂ ≤ c) :
    Parses I n n' d c k start look good p q :=
  h.mono (Nat.le_refl _) (Nat.le_refl _) hc (Nat.le_refl _) (fun _ _ => trivial) fun _ _ => id

theorem starting (h : Parses I n n' d c k start' look good p q) (hs : ∀ t, start t → start' t) :
    Parses I n n' d c k start look good p q :=
  h.mono (Nat.le_refl _) (Nat.le_refl _) (Nat.le_refl _) (Nat.le_refl _) hs fun _ _ => id

theorem weaken (h : Parses I n n' d c k start look good₁ p q)
    (hgood : ∀ ls x, good₁ ls x → good ls x) : Parses I n n' d c k start look good p q :=
  h.mono (Nat.le_refl _) (Nat.le_refl _) (Nat.le_refl _) (Nat.le_refl _) (fun _ => id) hgood

theorem any (h : Parses I n n' d c k start look good p q) :
    Parses I n n' d c 0 start look good p q :=
  h.mono (Nat.le_refl _) (Nat.le_refl _) (Nat.le_refl _) (Nat.zero_le _) (fun _ => id) fun _ _ => id

theorem fewer (h : Parses I m m' d c k start look good p q) (hn : n ≤ m) (hn' : n' ≤ m') :
    Parses I n n' d c k start look good p q :=
  h.mono hn hn' (Nat.le_refl _) (Nat.le_refl _) (fun _ => id) fun _ _ => id

theorem less (h : Parses I n n' d c k start look good p q) :
    Parses I (n - 1) (n' - 1) d c k start look good p q :=
  h.fewer (Nat.sub_le _ _) (Nat.sub_le _ _)

theorem level (h : Parses I n n' d c k start look good p q) :
    Parses I n n' (d + 1) (c + 1) k start look good p q := by
  intro ts e hends hI hlen hs
  exact (h ts e hends hI hlen hs).mono (fun _ => by omega) (Nat.le_refl _) (Nat.le_refl _)
    fun _ _ => id

theorem unread (h : Parses I n n' d c k start look good p q) (q' : Parser α) :
    Parses I n 0 d c k start look good p q' := by
  intro ts e hends hI hlen hs
  cases h ts e hends hI hlen hs with
  | deep hno hp => exact .deep hno hp
  | refused habout hp hq => exact .refused habout hp fun h => absurd h (Nat.not_lt_zero _)
  | read hts hcs hx hp hq => exact .read hts hcs hx hp fun _ _ _ h => absurd h (Nat.not_lt_zero _)

theorem zero : Parses I 0 n' d c k start look good p q :=
  fun _ _ _ _ hlen => absurd hlen (Nat.not_lt_zero _)

theorem pure {x : α} (h : good [] x) : Parses I n n' d c 0 start look good (pure x) (pure x) := by
  intro ts e _ _ _ _
  refine .read (List.nil_append ts).symm (Nat.zero_le _) h (fun _ _ => rfl)
    fun cs' us' hlex _ _ => ?_
  obtain rfl := List.map_eq_nil_iff.1 hlex
  rfl

theorem out (hc : d < c) : Parses I n n' d c k start look good (throw .tooDeep) q :=
  fun _ _ _ _ _ _ => .deep (by omega) fun _ _ => rfl

theorem refuse {err : ParseError} (h : ∀ t, start t → err.About [t]) :
    Parses I n n' d c k start look good (throw err) (throw err) := by
  intro ts e _ _ _ hs
  refine .refused ((h _ hs).mono ?_) (fun _ _ => rfl) fun _ _ _ => rfl
  cases ts <;> simp

/-- What a parser reads has also been read by it from tokens of which `I` holds. -/
theorem remembered (h : Parses I n n' d c k start look good p q) :
    Parses I n n' d c k start look (fun ls x => good ls x ∧ ∃ e ts rest, I e ts ∧
      start (ts.headD e) ∧
      ∀ us, From e us → p.run (ts ++ us) = .ok (x, rest ++ us)) p q := by
  intro ts e hends hI hlen hs
  cases h ts e hends hI hlen hs with
  | deep hno hp => exact .deep hno hp
  | refused habout hp hq => exact .refused habout hp hq
  | read hts hcs hx hp hq => exact .read hts hcs ⟨hx, e, ts, _, hI, hs, hp⟩ hp hq

/-! ## The next token -/

/-- What a parser may do with the next token. What it reads is decided by no more than `R` says of
the lexeme; an error tells the place as well. -/
theorem peek {R : Lexeme → Lexeme → Prop} (hR : ∀ l, R l l) {g h : Token → Parser α}
    (hlook : k = 0 → ∀ l l', look.alike l l' → R l l')
    (hagree : ∀ t t', R t.lexeme t'.lexeme → ∀ vs r, (h t).run vs = .ok r → (h t').run vs = .ok r)
    (hg : ∀ t, start t → (t.kind ≠ .finish → Seen I t.lexeme) →
      Parses I n n' d c k (· = t) look good (g t) (h t)) :
    Parses I n n' d c k start look good (current >>= g) (current >>= h) := by
  intro ts e hends hI hlen hs
  have hseen : (ts.headD e).kind ≠ .finish → Seen I (ts.headD e).lexeme := by
    cases ts with
    | nil => exact fun hne => absurd hends.finish hne
    | cons t ts => exact fun _ => ⟨e, t, ts, hI, rfl⟩
  have hrun {f : Token → Parser α} (us : List Token) (hus : From e us) :
      (current >>= f).run (ts ++ us) = (f (ts.headD e)).run (ts ++ us) := by
    cases ts with
    | nil => exact congrArg (fun t => (f t).run us) hus
    | cons t ts => rfl
  cases hg (ts.headD e) hs hseen ts e hends hI hlen rfl with
  | deep hno hp => exact .deep hno fun us hus => (hrun us hus).trans (hp us hus)
  | refused habout hp hq =>
    exact .refused habout (fun us hus => (hrun us hus).trans (hp us hus)) fun hlen us hus =>
      (hrun us hus).trans (hq hlen us hus)
  | @read x cs rest hts hcs hx hp hq =>
    refine .read hts hcs hx (fun us hus => (hrun us hus).trans (hp us hus)) ?_
    intro cs' us' hlex hlen halike
    refine hagree (ts.headD e) _ ?_ (cs' ++ us') _ (hq cs' us' hlex hlen halike)
    subst hts
    cases cs with
    | nil =>
      obtain rfl := List.map_eq_nil_iff.1 hlex
      exact hlook (Nat.le_zero.1 hcs) _ _ halike
    | cons t cs =>
      obtain ⟨t', cs', rfl, ht, -⟩ := List.map_eq_cons_iff.1 hlex
      show R t.lexeme t'.lexeme
      rw [ht]
      exact hR _

theorem advance {l : Lexeme} (hstart : ∀ t, start t → t.lexeme = l) (hl : l.kind ≠ .finish) :
    Parses I n n' d c 1 start .nothing (fun ls _ => ls = [l]) Parser.advance Parser.advance := by
  intro ts e hends _ _ hs
  have ht := hstart _ hs
  cases ts with
  | nil => exact absurd (ht ▸ hends.finish) hl
  | cons t rest =>
    refine .read List.singleton_append.symm (Nat.le_refl _) (congrArg (fun l => [l]) ht)
      (fun _ _ => rfl) ?_
    intro cs' us' hlex _ _
    obtain ⟨t', rfl, -⟩ := List.map_eq_singleton_iff.1 hlex
    rfl

theorem sees {g h : Bool → Parser α} [Tells look k kind]
    (htrue : Parses I n n' d c k (fun t => t.kind = kind) look good (g true) (h true))
    (hfalse : Parses I n n' d c k (fun t => t.kind ≠ kind) look good (g false) (h false)) :
    Parses I n n' d c k start look good (Parser.sees kind >>= g) (Parser.sees kind >>= h) := by
  unfold Parser.sees
  simp only [bind_assoc, pure_bind]
  refine peek (R := fun l l' => l.kind = kind ↔ l'.kind = kind) (fun _ => Iff.rfl) Tells.iff ?_
    fun t _ _ => ?_
  · intro t t' ht vs r hrun
    rw [Token.kind] at hrun ⊢
    rwa [← decide_eq_decide.2 ht]
  · by_cases hk : t.kind = kind
    · rw [decide_eq_true hk]
      exact htrue.starting fun _ ht => ht ▸ hk
    · rw [decide_eq_false hk]
      exact hfalse.starting fun _ ht => ht ▸ hk

/-! ## One parser after another -/

variable [Hereditary I]

section

variable {g h : β → Parser α} {good₁ : List Lexeme → β → Prop} {p q : Parser β}

theorem seq (hp : Parses I n n' d c k₁ start look₁ good₁ p q)
    (hg : ∀ x ls, good₁ ls x → Parses I m m' d c₂ k₂ anyToken look (fun ms => good (ls ++ ms))
      (g x) (h x)) (hn : n ≤ m + k₁) (hn' : n' ≤ m' + k₁) (hc : c₂ ≤ c + 11 * k₁) (hk : k ≤ k₁ + k₂)
    (hlook : k₂ = 0 → Finer look look₁) :
    Parses I n n' d c k start look good (p >>= g) (q >>= h) := by
  intro ts e hends hI hlen hs
  refine (hp ts e hends hI hlen hs).bind (fun x cs rest hts hcs hx => ?_) hn' hk hlook
  have hrest : rest <:+ ts := ⟨cs, hts.symm⟩
  rw [hts, List.length_append] at hlen ⊢
  exact (hg x _ hx rest e (hends.of_suffix hrest) (Hereditary.of_suffix hI hrest)
    (by omega) trivial).mono (fun _ => by omega) (Nat.le_refl _) (Nat.le_refl _) fun _ _ => id

theorem bind (hp : Parses I n n' d c k start look₁ good₁ p q)
    (hg : ∀ x ls, good₁ ls x → Parses I n n' d c 1 anyToken look (fun ms => good (ls ++ ms))
      (g x) (h x)) : Parses I n n' d c 1 start look good (p >>= g) (q >>= h) :=
  hp.seq hg (Nat.le_add_right _ _) (Nat.le_add_right _ _) (Nat.le_add_right _ _)
    (Nat.le_add_left _ _) nofun

/-- The second part may take nothing, so that the first has to see what is behind both. -/
theorem last [Finer look look₁] (hp : Parses I n n' d c k start look₁ good₁ p q)
    (hg : ∀ x ls, good₁ ls x → Parses I n n' d c 0 anyToken look (fun ms => good (ls ++ ms))
      (g x) (h x)) : Parses I n n' d c k start look good (p >>= g) (q >>= h) :=
  hp.seq hg (Nat.le_add_right _ _) (Nat.le_add_right _ _) (Nat.le_add_right _ _) (Nat.le_refl _)
    fun _ => inferInstance

/-- The first part takes a token, so that the second has one less to read and eleven levels more. -/
theorem onward (hp : Parses I n n' d c 1 start look₁ good₁ p q) (hg : ∀ x ls, good₁ ls x →
      Parses I (n - 1) (n' - 1) d 12 1 anyToken look (fun ms => good (ls ++ ms)) (g x) (h x))
    (hc : 1 ≤ c) : Parses I n n' d c 1 start look good (p >>= g) (q >>= h) :=
  hp.seq hg (by omega) (by omega) (by omega) (Nat.le_add_left _ _) nofun

theorem rest [Finer look look₁] (hp : Parses I n n' d c 1 start look₁ good₁ p q)
    (hg : ∀ x ls, good₁ ls x →
      Parses I (n - 1) (n' - 1) d c₂ 0 anyToken look (fun ms => good (ls ++ ms)) (g x) (h x))
    (hc : c₂ ≤ c + 11) : Parses I n n' d c 1 start look good (p >>= g) (q >>= h) :=
  hp.seq hg (by omega) (by omega) hc (Nat.le_refl _) fun _ => inferInstance

theorem ret [Finer look look₁] (hp : Parses I n n' d c k start look₁ good₁ p q) (f : β → α)
    (hf : ∀ ls x, good₁ ls x → good ls (f x)) :
    Parses I n n' d c k start look good (p >>= fun x => Pure.pure (f x)) (q >>= fun x =>
      Pure.pure (f x)) :=
  hp.last fun x ls hx => .pure (by simpa using hf ls x hx)

theorem map [Finer look look₁] (hp : Parses I n n' d c k start look₁ good₁ p q) (f : β → α)
    (hf : ∀ ls x, good₁ ls x → good ls (f x)) :
    Parses I n n' d c k start look good (f <$> p) (f <$> q) := by
  rw [map_eq_pure_bind, map_eq_pure_bind]
  exact hp.ret f hf

end

/-! ## Tokens that have to stand there -/

section

variable {g h : Unit → Parser α}

/-- Passes over a token that has been seen. -/
theorem skip {t : Token} {l : Lexeme} (ht : t.lexeme = l) (hl : decide (l.kind = .finish) = false)
    (hg : Parses I (n - 1) (n' - 1) d c₂ k anyToken look (fun ls => good (l :: ls)) (g ()) (h ()))
    (hc : c₂ ≤ c + 11) :
    Parses I n n' d c 1 (· = t) look good (Parser.advance >>= g) (Parser.advance >>= h) := by
  refine (advance (fun _ h => h ▸ ht) (of_decide_eq_false hl)).rest (fun _ ls hls => ?_) hc
  subst hls
  exact hg.any

/-- A token that has to stand there; what is returned depends on its lexeme. -/
theorem expect (want : Kind) (hw : want ≠ .finish) (f : Lexeme → α) :
    Parses I n n' d c 1 start .nothing (fun ls x => ∃ l, l.kind = want ∧ Seen I l ∧
      x = f l ∧ ls = [l]) (Parser.expect want >>= fun t => Pure.pure (f t.lexeme))
    (Parser.expect want >>= fun t => Pure.pure (f t.lexeme)) := by
  unfold Parser.expect
  rw [bind_assoc]
  refine peek (fun _ => rfl) nofun ?_ fun t _ hseen => ?_
  · intro t t' ht vs r hrun
    rw [Token.kind] at hrun ⊢
    rw [← ht]
    split at hrun
    · next hk =>
      rw [if_pos hk, ← hrun, bind_assoc, bind_assoc, pure_bind, pure_bind, ht]
    · cases hrun
  · by_cases hk : t.kind = want
    · rw [if_pos hk, bind_assoc]
      simp only [pure_bind]
      have hne : t.kind ≠ .finish := hk ▸ hw
      exact (advance (fun _ => congrArg Token.lexeme) hne).ret _ fun ls _ hls =>
        ⟨t.lexeme, hk, hseen hne, rfl, hls⟩
    · rw [if_neg hk]
      refine refuse ?_
      rintro _ rfl
      exact ⟨hk, _, List.mem_singleton_self _, rfl, rfl, rfl⟩

theorem symbol (s : Symbol) :
    Parses I n n' d c 1 start .nothing (fun ls _ => ls = [.symbol s]) (Parser.symbol s)
      (Parser.symbol s) := by
  refine (expect (.symbol s) nofun fun _ => ()).weaken ?_
  rintro ls x ⟨l, hl, -, -, rfl⟩
  rw [Lexeme.kind_eq_symbol.1 hl]

theorem keyword (w : Keyword) : Parses I n n' d c 1 start .nothing
    (fun ls _ => ls = [.keyword w] ∧ Seen I (.keyword w)) (Parser.keyword w)
      (Parser.keyword w) := by
  refine (expect (.keyword w) nofun fun _ => ()).weaken ?_
  rintro ls x ⟨l, hl, hseen, -, rfl⟩
  rw [Lexeme.kind_eq_keyword.1 hl] at hseen ⊢
  exact ⟨rfl, hseen⟩

/-- Goes on after a symbol. -/
theorem past {s : Symbol}
    (hg : Parses I n n' d c k anyToken look (fun ls => good (.symbol s :: ls)) (g ()) (h ())) :
    Parses I n n' d c 1 start look good (Parser.symbol s >>= g) (Parser.symbol s >>= h) :=
  (symbol s).last fun _ _ hls => by subst hls; exact hg.any

/-- Goes on after a keyword. -/
theorem pastWord {w : Keyword}
    (hg : Parses I n n' d c k anyToken look (fun ls => good (.keyword w :: ls)) (g ()) (h ())) :
    Parses I n n' d c 1 start look good (Parser.keyword w >>= g) (Parser.keyword w >>= h) :=
  (keyword w).last fun _ _ hls => by rw [hls.1]; exact hg.any

end

/-- The text of a name. -/
def nameText : Lexeme → String
  | .name s => s
  | _ => ""

theorem name : Parses I n n' d c 1 start .nothing (fun ls x => ls = [.name x] ∧ Seen I (.name x))
    Parser.name Parser.name := by
  have hname : Parser.name = Parser.expect .name >>= fun t => Pure.pure (nameText t.lexeme) := by
    unfold Parser.name
    congr 1
    funext t
    cases t.lexeme <;> rfl
  rw [hname]
  refine (expect .name (of_decide_eq_false rfl) nameText).weaken ?_
  rintro ls x ⟨l, hl, hseen, rfl, rfl⟩
  cases l with
  | name x => exact ⟨rfl, hseen⟩
  | _ => cases hl

theorem someName : Parses I n n' d c 1 start .nothing
    (fun ls o => ∃ x, o = some x ∧ ls = [.name x] ∧ Seen I (.name x)) (some <$> Parser.name)
    (some <$> Parser.name) :=
  name.map some fun _ x hx => ⟨x, rfl, hx⟩

/-- Passes over the next token if it has the lexeme `l`, and goes on accordingly. -/
theorem accept {g h : Bool → Parser α} {l : Lexeme} (hl : ∀ {l' : Lexeme}, l'.kind = kind ↔ l' = l)
    (hne : kind ≠ .finish) [Tells look k kind]
    (htrue : Parses I (n - 1) (n' - 1) d c k anyToken look (fun ls => good (l :: ls))
      (g true) (h true)) (hfalse : Parses I n n' d c k anyToken look good (g false) (h false)) :
    Parses I n n' d c k start look good (Parser.accept kind >>= g) (Parser.accept kind >>= h) := by
  unfold Parser.accept
  simp only [bind_assoc]
  refine sees ?_ ?_
  · simp only [if_true, bind_assoc, pure_bind]
    have hless (a : Nat) : a ≤ a - 1 + 1 := by omega
    refine (advance (fun _ => hl.1) (hl.2 rfl ▸ hne)).seq (fun _ ls hls => ?_) (hless n) (hless n')
      (Nat.le_add_right c 11) (Nat.le_add_left k 1) fun _ => inferInstance
    subst hls
    exact htrue
  · simp only [Bool.false_eq_true, if_false, pure_bind]
    exact hfalse.here (Nat.le_refl _)

end Parses

end Parser

end ScriptLang
