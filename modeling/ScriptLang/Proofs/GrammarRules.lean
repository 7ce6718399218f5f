import ScriptLang.Proofs.ParserOutcomes

/-!
# The grammar

`Grammar` lists the ways in which lexemes make expressions and statements. A relation between
lexemes and trees that each of them keeps holds of the lexemes and the tree of everything that is
read. The rules call each other with one level less to nest, so what comes of them is shown of all
of them together, by induction on the number of levels (`Rules.all`).
-/

namespace ScriptLang

/-- The lexeme of a literal. -/
def Literal.lexeme : Literal → Lexeme
  | .null => .keyword .nullWord
  | .bool true => .keyword .trueWord
  | .bool false => .keyword .falseWord
  | .whole n => .whole n
  | .real x => .real x
  | .text s => .text s

/-- The symbol of a binary operator. -/
def BinaryOp.symbol : BinaryOp → Symbol
  | .or => .or
  | .and => .and
  | .eq => .eq
  | .ne => .neq
  | .lt => .lt
  | .gt => .gt
  | .le => .lte
  | .ge => .gte
  | .add => .plus
  | .sub => .minus
  | .mul => .multiply
  | .div => .divide
  | .mod => .modulo

/-- The symbol of a unary operator. -/
def UnaryOp.symbol : UnaryOp → Symbol
  | .neg => .minus
  | .not => .not

namespace Parser

theorem symbol_of_atLevel? {level : Nat} {l : Lexeme} {op : BinaryOp}
    (h : BinaryOp.atLevel? level l = some op) : l = .symbol op.symbol := by
  cases l with
  | symbol s =>
    have hop : BinaryOp.ofSymbol? s = some op := (Option.filter_eq_some_iff.1 h).1
    cases s <;> cases hop <;> rfl
  | _ => cases h

theorem symbol_of_ofLexeme? {l : Lexeme} {op : UnaryOp} (h : UnaryOp.ofLexeme? l = some op) :
    l = .symbol op.symbol := by
  unfold UnaryOp.ofLexeme? at h
  split at h <;> cases h <;> rfl

/-! ## Phrases -/

variable {α : Type}

/-- The lexemes of one item after another. -/
def Each (good : List Lexeme → α → Prop) : List Lexeme → List α → Prop
  | ls, [] => ls = []
  | ls, x :: xs => ∃ ms ns, ls = ms ++ ns ∧ good ms x ∧ Each good ns xs

/-- An item and the comma that may follow it. -/
def Separated (good : List Lexeme → α → Prop) (ls : List Lexeme) (x : α) : Prop :=
  good ls x ∨ ∃ ms, ls = ms ++ [.symbol .comma] ∧ good ms x

/-- Items with optional commas and the symbol that closes them. -/
def Listed (good : List Lexeme → α → Prop) (close : Symbol) (ls : List Lexeme) (xs : List α) :
    Prop :=
  ∃ ms, ls = ms ++ [.symbol close] ∧ Each (Separated good) ms xs

def Perhaps (good : List Lexeme → α → Prop) : List Lexeme → Option α → Prop
  | ls, none => ls = []
  | ls, some x => good ls x

variable {I : Token → List Token → Prop} {P : List Lexeme → Expr → Prop}
  {Q : List Lexeme → Stmt → Prop}

/-- A statement; an empty one is a semicolon. -/
def OrEmpty (Q : List Lexeme → Stmt → Prop) : List Lexeme → Option Stmt → Prop
  | ls, none => ls = [.symbol .semicolon]
  | ls, some s => Q ls s

/-- Statements in braces. -/
def Body (Q : List Lexeme → Stmt → Prop) (ls : List Lexeme) (body : List Stmt) : Prop :=
  ∃ ms os, ls = .symbol .lbrace :: (ms ++ [.symbol .rbrace]) ∧ Each (OrEmpty Q) ms os ∧
    body = os.filterMap id

/-- The other branch of a conditional, which may be one itself. -/
def Otherwise (Q : List Lexeme → Stmt → Prop) : List Lexeme → Option (List Stmt) → Prop
  | ls, none => ls = []
  | ls, some body =>
      ∃ ms, ls = .keyword .elseWord :: ms ∧ (Body Q ms body ∨ ∃ s, body = [s] ∧ Q ms s)

def Named (I : Token → List Token → Prop) (ls : List Lexeme) (x : String) : Prop :=
  ls = [.name x] ∧ Seen I (.name x)

def Field (P : List Lexeme → Expr → Prop) (ls : List Lexeme) (f : String × Expr) : Prop :=
  ∃ ms, ls = .name f.1 :: .symbol .assign :: ms ∧ P ms f.2

/-- The fields have been read after a brace among tokens of which `I` holds. -/
def ReadsFields (I : Token → List Token → Prop) (r : Nat) (fields : List (String × Expr)) : Prop :=
  ∃ e ts rest d, I e ts ∧ (ts.headD e).lexeme = .symbol .lbrace ∧ ∀ us, From e us →
    (advance >>= fun _ => listUntil r .rbrace (field (expression r d))).run (ts ++ us) = .ok
    (fields, rest ++ us)

/-- What is asked of a method. -/
def GoodMethod (I : Token → List Token → Prop) (Q : List Lexeme → Stmt → Prop)
    (m : MethodDef (List Stmt)) : Prop :=
  (∀ x ∈ m.params, Seen I (.name x)) ∧ ∃ ls, Body Q ls m.body

/-- What is asked of a member of a class. -/
def GoodMember (I : Token → List Token → Prop) (P : List Lexeme → Expr → Prop)
    (Q : List Lexeme → Stmt → Prop) : MethodDef (List Stmt) ⊕ PropertyDef Expr → Prop
  | .inl m => GoodMethod I Q m
  | .inr p => ∀ e ∈ p.value, ∃ ls, P ls e

/-- The ways of building expressions, which satisfy `P` with their lexemes, and statements, which
satisfy `Q`, of tokens of which `I` holds. The left side of an assignment was read as an expression.
Of a class no more is said than that its parts have been read and a brace ends it. -/
structure Grammar (I : Token → List Token → Prop) (r : Nat) (P : List Lexeme → Expr → Prop)
    (Q : List Lexeme → Stmt → Prop) : Prop where
  literal (v : Literal) : P [v.lexeme] (.literal v)
  name {x} : Seen I (.name x) → P [.name x] (.name x)
  this : P [.keyword .thisWord] .this
  inParens {e ls} : P ls e → P (.symbol .lparen :: (ls ++ [.symbol .rparen])) e
  array {xs ls} : Listed P .rbracket ls xs → P (.symbol .lbracket :: ls) (.array xs)
  object {fs ls} : Listed (Field P) .rbrace ls fs → ReadsFields I r fs →
    P (.symbol .lbrace :: ls) (.object (fs.foldl (fun fs f => putField f.1 f.2 fs) []))
  function {f ls ms} : (∀ x ∈ f.name, Seen I (.name x)) → Listed (Named I) .rparen ls f.params →
    Body Q ms f.body →
    P (.keyword .functWord :: (f.name.toList.map .name ++ .symbol .lparen :: (ls ++ ms)))
    (.function f)
  call {f xs ls ms} : P ls f → Listed P .rparen ms xs → P (ls ++ .symbol .lparen :: ms) (.call f xs)
  member {o x ls} : P ls o → P (ls ++ [.symbol .dot, .name x]) (.member o x)
  index {a i ls ms} : P ls a → P ms i →
    P (ls ++ .symbol .lbracket :: (ms ++ [.symbol .rbracket])) (.index a i)
  unary {op e ls} : P ls e → P (.symbol op.symbol :: ls) (.unary op e)
  binary {op left right ls ms} : P ls left → P ms right →
    P (ls ++ .symbol op.symbol :: ms) (.binary op left right)
  assign {x e ls ms} : P ls (.name x) → P ms e → P (ls ++ .symbol .assign :: ms) (.assign x e)
  assignIndex {a i e ls ms} : P ls (.index a i) → P ms e →
    P (ls ++ .symbol .assign :: ms) (.assignIndex a i e)
  assignMember {o x e ls ms} : P ls (.member o x) → P ms e →
    P (ls ++ .symbol .assign :: ms) (.assignMember o x e)
  new {x xs ls} : Listed P .rparen ls xs →
    P (.keyword .newWord :: .name x :: .symbol .lparen :: ls) (.new x xs)
  expr {e ls} : P ls e → Q (ls ++ [.symbol .semicolon]) (.expr e)
  block {body ls} : Body Q ls body → Q ls (.block body)
  cond {c t e ls ms ns} : P ls c → Body Q ms t → Otherwise Q ns e →
    Q (.keyword .ifWord :: .symbol .lparen :: (ls ++ .symbol .rparen :: (ms ++ ns))) (.cond c t e)
  whileLoop {c body ls ms} : P ls c → Body Q ms body →
    Q (.keyword .whileWord :: .symbol .lparen :: (ls ++ .symbol .rparen :: ms)) (.while c body)
  doLoop {c body ls ms} : Body Q ls body → P ms c →
    Q (.keyword .doWord :: (ls ++ .keyword .whileWord :: .symbol .lparen ::
      (ms ++ [.symbol .rparen, .symbol .semicolon]))) (.doWhile body c)
  forLoop {i c s body ls ms ns os} : Perhaps P ls i → Perhaps P ms c → Perhaps P ns s →
    Body Q os body →
    Q (.keyword .forWord :: .symbol .lparen ::
      (ls ++ .symbol .semicolon :: (ms ++ .symbol .semicolon ::
      (ns ++ .symbol .rparen :: os)))) (.for i c s body)
  breakOut : Q [.keyword .breakWord, .symbol .semicolon] .break
  continueOn : Q [.keyword .continueWord, .symbol .semicolon] .continue
  returnBack {v ls} : Perhaps P ls v → Q (.keyword .returnWord :: (ls ++ [.symbol .semicolon]))
    (.return v)
  classDef {c ls} : Seen I (.keyword .classWord) → Seen I (.name c.name) →
    (∀ m ∈ c.methods, GoodMethod I Q m) → (∀ p ∈ c.properties, ∀ e ∈ p.value, ∃ ls, P ls e) →
    ls.getLast? = some (.symbol .rbrace) → Q (.keyword .classWord :: ls) (.classDef c)

section

variable {good : List Lexeme → α → Prop} {ls : List Lexeme}

theorem Each.forall {xs : List α} (h : Each good ls xs) : ∀ x ∈ xs, ∃ ms, good ms x := by
  induction xs generalizing ls with
  | nil => exact nofun
  | cons x xs ih =>
    obtain ⟨ms, ns, -, hx, hxs⟩ := h
    exact List.forall_mem_cons.2 ⟨⟨ms, hx⟩, ih hxs⟩

theorem Listed.forall {close : Symbol} {xs : List α} (h : Listed good close ls xs) :
    ∀ x ∈ xs, ∃ ms, good ms x := by
  obtain ⟨ms, -, hxs⟩ := h
  intro x hx
  obtain ⟨ns, hx | ⟨os, -, hx⟩⟩ := hxs.forall x hx
  · exact ⟨ns, hx⟩
  · exact ⟨os, hx⟩

theorem forall_of_statements {os : List (Option Stmt)} (h : Each (OrEmpty Q) ls os) :
    ∀ s ∈ os.filterMap id, ∃ ms, Q ms s := by
  intro s hs
  obtain ⟨o, ho, rfl⟩ := List.mem_filterMap.1 hs
  exact h.forall _ ho

theorem Perhaps.forall {o : Option α} (h : Perhaps good ls o) : ∀ x ∈ o, ∃ ms, good ms x := by
  rintro x rfl
  exact ⟨ls, h⟩

theorem Body.forall {body : List Stmt} (h : Body Q ls body) : ∀ s ∈ body, ∃ ms, Q ms s := by
  obtain ⟨ms, os, -, hos, rfl⟩ := h
  exact forall_of_statements hos

theorem Otherwise.forall {e : Option (List Stmt)} (h : Otherwise Q ls e) :
    ∀ body ∈ e, ∀ s ∈ body, ∃ ms, Q ms s := by
  rintro body rfl
  obtain ⟨ms, -, hbody | ⟨s, rfl, hs⟩⟩ := h
  · exact hbody.forall
  · exact List.forall_mem_singleton.2 ⟨ms, hs⟩

end

/-! ## The parts of rules -/

theorem discard_bind {β : Type} (p : Parser β) (g : Unit → Parser α) :
    (discard p >>= g) = p >>= fun _ => g () := by
  have : discard p = (fun _ => ()) <$> p := rfl
  rw [this, bind_map_left]

variable [Hereditary I] {n n' m m' d c k : Nat} {look : Look} {start : Token → Prop}

namespace Parses

section

variable {good : List Lexeme → α → Prop} {item item' : Parser α}
  (hitem : Parses I n n' d c 1 anyToken look good item item')

include hitem

theorem itemsUntil {stop : Kind} : Parses I n n' d c 0 start .whole (Each good)
    (Parser.itemsUntil stop item n) (Parser.itemsUntil stop item' n') := by
  induction n generalizing n' start with
  | zero => exact zero
  | succ n ih =>
    have step : Parses I (n + 1) n' d c 0 start .whole (Each good)
        (Parser.itemsUntil stop item (n + 1)) (Parser.itemsUntil stop item' (n' - 1 + 1)) := by
      have item : Parses I (n + 1) n' d c 1 (fun t => t.kind ≠ stop) .whole (Each good) _ _ :=
        (hitem.here (Nat.le_refl _)).rest (fun x ls hx =>
          (ih hitem.less).ret (x :: ·) fun ms xs hxs => ⟨ls, ms, rfl, hx, hxs⟩)
            (Nat.le_add_right c 11)
      exact sees (.pure rfl) item.any
    -- where the second parser has no rounds left, it may read nothing
    cases n' with
    | zero => exact step.unread _
    | succ n' => exact step

theorem withComma : Parses I n n' d c 1 anyToken .whole (Separated good) (Parser.withComma item)
    (Parser.withComma item') := by
  refine hitem.last fun x ls hx => ?_
  rw [discard_bind]
  refine accept Lexeme.kind_eq_symbol nofun (.pure (.inr ⟨ls, rfl, hx⟩)) (.pure ?_)
  rw [List.append_nil]
  exact .inl hx

theorem listUntil {close : Symbol} : Parses I n n' d c 1 start .nothing (Listed good close)
    (Parser.listUntil n close item) (Parser.listUntil n' close item') :=
  hitem.withComma.itemsUntil.bind fun _ ls hxs => .past (.pure ⟨ls, rfl, hxs⟩)

end

theorem parameters : Parses I n n' d c 1 start .nothing
    (fun ls xs => ∃ ms, ls = .symbol .lparen :: ms ∧ Listed (Named I) .rparen ms xs)
    (Parser.parameters n) (Parser.parameters n') :=
  past (name.listUntil.weaken fun ls _ h => ⟨ls, rfl, h⟩)

section

variable {r : Nat} {expression expression' : Parser Expr} (hc : Grammar I r P Q)
  (he : Parses I n n' d c 1 anyToken .whole P expression expression')

include hc he

theorem chain (level : Nat) {left : Expr} {before : List Lexeme} (hleft : P before left) :
    Parses I n n' d c 0 start .whole (fun ls e => P (before ++ ls) e)
      (Parser.chain expression level n left) (Parser.chain expression' level n' left) := by
  induction n generalizing n' start left before with
  | zero => exact zero
  | succ n ih =>
    have step : Parses I (n + 1) n' d c 0 start .whole (fun ls e => P (before ++ ls) e)
        (Parser.chain expression level (n + 1) left)
        (Parser.chain expression' level (n' - 1 + 1) left) := by
      refine peek (fun _ => rfl) (fun _ _ _ => id) (fun t t' ht => by rw [ht]; exact fun _ _ => id)
        fun t _ _ => ?_
      split
      · exact .pure (by simpa using hleft)
      · next op hop =>
        exact (skip (l := .symbol op.symbol) (symbol_of_atLevel? hop) rfl
          (he.less.last fun right ls hright => by
          simpa using ih he.less (hc.binary hleft hright)) (Nat.le_add_right c 11)).any
    cases n' with
    | zero => exact step.unread _
    | succ n' => exact step

theorem suffixes (hm : m ≤ n) (hm' : m' ≤ n') {e : Expr} {before : List Lexeme}
    (hbefore : P before e) :
    Parses I m m' d c 0 start .whole (fun ls e => P (before ++ ls) e)
      (Parser.suffixes n expression m e) (Parser.suffixes n' expression' m' e) := by
  induction m generalizing m' start e before with
  | zero => exact zero
  | succ m ih =>
    have hless : m' - 1 ≤ n' := Nat.le_trans (Nat.sub_le _ _) hm'
    -- what stands after the first symbol of a suffix, and further suffixes
    have more {γ : Type} {p q : Parser γ} {good : List Lexeme → γ → Prop} {look : Look} (l : Lexeme)
        {f : γ → Expr} (hp : Parses I n n' d c 1 anyToken look good p q)
        (hf : ∀ ls x, good ls x → P (before ++ l :: ls) (f x)) :
        Parses I m (m' - 1) d c 0 anyToken .whole (fun ls e => P (before ++ l :: ls) e)
          (p >>= fun x => Parser.suffixes n expression m (f x))
          (q >>= fun x => Parser.suffixes n' expression' (m' - 1) (f x)) :=
      ((hp.fewer (Nat.le_of_succ_le hm) hless).last fun x ls hx => by
        simpa using ih (Nat.le_of_succ_le hm) hless (hf ls x hx)).any
    have step : Parses I (m + 1) m' d c 0 start .whole (fun ls e => P (before ++ ls) e)
        (Parser.suffixes n expression (m + 1) e)
        (Parser.suffixes n' expression' (m' - 1 + 1) e) := by
      refine accept Lexeme.kind_eq_symbol nofun ?_ (accept Lexeme.kind_eq_symbol nofun ?_
        (accept Lexeme.kind_eq_symbol nofun ?_ (.pure (by simpa using hbefore))))
      · exact more _ name fun ls x hx => by rw [hx.1]; exact hc.member hbefore
      · exact more _ he.listUntil fun ls xs hxs => hc.call hbefore hxs
      · have index : Parses I n n' d c 1 anyToken .nothing
            (fun ls i => ∃ ms, ls = ms ++ [.symbol .rbracket] ∧ P ms i)
            (expression >>= fun i => Parser.symbol .rbracket >>= fun _ => Pure.pure i)
            (expression' >>= fun i => Parser.symbol .rbracket >>= fun _ => Pure.pure i) :=
          he.bind fun i ls hi => past (.pure ⟨ls, rfl, hi⟩)
        have indices := more (.symbol .lbracket) index fun ls i ⟨ms, hls, hi⟩ => hls ▸
          hc.index hbefore hi
        simp only [bind_assoc, pure_bind] at indices
        exact indices
    cases m' with
    | zero => exact step.unread _
    | succ m' => exact step

omit hc

theorem optional (stop : Symbol) : Parses I n n' d c 0 start .whole (Perhaps P)
    (Parser.optional expression stop) (Parser.optional expression' stop) :=
  sees (.pure rfl) ((he.here (Nat.le_refl c)).ret some fun _ _ h => h).any

theorem field : Parses I n n' d c 1 anyToken .whole (Field P) (Parser.field expression)
    (Parser.field expression') :=
  name.bind fun key ls hkey => past (he.ret _ fun ms _ h => ⟨ms, by rw [hkey.1]; rfl, h⟩)

theorem property (access : Access) (isStatic : Bool) : Parses I n n' d c 1 start .nothing
    (fun _ => GoodMember I P Q) (Parser.property expression access isStatic)
    (Parser.property expression' access isStatic) := by
  refine name.bind fun property _ _ => accept Lexeme.kind_eq_symbol nofun ?_ ?_
  · have value : Parses I n n' d c 1 anyToken .whole (fun _ v => ∀ e ∈ v, ∃ ls, P ls e)
        (some <$> expression)
        (some <$> expression') := he.map _ fun ls e h => by simpa using ⟨ls, h⟩
    exact value.less.bind fun v _ hv => past (.pure hv)
  · simp only [Bool.false_eq_true, if_false, pure_bind]
    exact past (.pure nofun)

variable {method method' : Access → Bool → Parser (MethodDef (List Stmt))}
  (hmethod : ∀ access isStatic, Parses I n n' d c 1 anyToken .nothing (fun _ => GoodMethod I Q)
    (method access isStatic) (method' access isStatic))

include hmethod

theorem member (access : Access) : Parses I n n' d c 1 start .nothing (fun _ => GoodMember I P Q)
    (Parser.member method expression access) (Parser.member method' expression' access) := by
  refine accept Lexeme.kind_eq_keyword nofun (Parses.less ?_) ?_
  all_goals
    exact sees (((hmethod access _).here (Nat.le_refl c)).ret _ fun _ _ h => h)
      (he.property access _)

theorem classMember : Parses I n n' d c 1 anyToken .nothing (fun _ => GoodMember I P Q)
    (Parser.classMember method expression) (Parser.classMember method' expression') := by
  refine peek (fun _ => rfl) nofun (fun t t' ht => by rw [ht]; exact fun _ _ => id) fun t _ _ => ?_
  split
  · next a ha =>
    have hne : t.lexeme.kind ≠ .finish := by
      intro hfinish
      rw [Lexeme.kind_eq_finish.1 hfinish] at ha
      contradiction
    exact skip rfl (decide_eq_false hne) (he.member hmethod a).less (Nat.le_add_right c 11)
  · exact he.member hmethod _

end

end Parses

/-! ## The rules -/

/-- What comes of every rule with `r` rounds and `d` levels, and of the same rule with other rounds
and more levels. A rule that starts with another one at the same token needs a level more than that
one. -/
structure Rules (I : Token → List Token → Prop) (P : List Lexeme → Expr → Prop)
    (Q : List Lexeme → Stmt → Prop) (r m d d' : Nat) : Prop where
  statement : Parses I (r + 1) (m + 1) d 11 1 anyToken .elseWord (OrEmpty Q) (statement r d)
    (statement m d')
  block : Parses I (r + 1) (m + 1) d 1 1 anyToken .nothing (Body Q) (block r d) (block m d')
  conditional : Parses I (r + 1) (m + 1) d 1 1 anyToken .elseWord Q (conditional r d)
    (conditional m d')
  function : Parses I (r + 1) (m + 1) d 1 1 anyToken .nothing (fun ls f => P ls (.function f))
    (function r d) (function m d')
  method (access : Access) (isStatic : Bool) : Parses I (r + 1) (m + 1) d 1 1 anyToken .nothing
    (fun _ => GoodMethod I Q) (method r d access isStatic) (method m d' access isStatic)
  classDef : Parses I (r + 1) (m + 1) d 1 1 anyToken .nothing (fun ls c => Q ls (.classDef c))
    (classDef r d) (classDef m d')
  expression : Parses I (r + 1) (m + 1) d 10 1 anyToken .whole P (expression r d) (expression m d')
  binary (level : Nat) (hlevel : level ≤ BinaryOp.lastLevel) :
    Parses I (r + 1) (m + 1) d (9 - level) 1 anyToken .whole P (binary r d level)
    (binary m d' level)
  unary : Parses I (r + 1) (m + 1) d 3 1 anyToken .whole P (unary r d) (unary m d')
  primary : Parses I (r + 1) (m + 1) d 2 1 anyToken .whole P (primary r d) (primary m d')

namespace Parses

variable {good : List Lexeme → α → Prop} {p q : Parser α}

omit [Hereditary I] in
/-- A rule that another one starts with. -/
theorem deeper (h : Parses I n n' d c k anyToken look good p q) {c' : Nat} (hc : c < c') :
    Parses I n n' (d + 1) c' k start look good p q :=
  h.level.here hc

omit [Hereditary I] in
/-- A rule inside another one, which has taken a token before. -/
theorem inner (h : Parses I (n + 1) (n' + 1) d c k anyToken look good p q) (hc : c ≤ 11) :
    Parses I n n' (d + 1) 12 k start look good p q :=
  (h.deeper (Nat.lt_succ_of_le hc)).less

/-- A rule that starts with a keyword. -/
theorem enter {w : Keyword} {g h : Unit → Parser α} (hg : Seen I (.keyword w) →
      Parses I n n' d 12 k anyToken look (fun ls => good (.keyword w :: ls)) (g ()) (h ())) :
    Parses I (n + 1) (n' + 1) d 1 1 start look good (Parser.keyword w >>=
      g) (Parser.keyword w >>= h) :=
  (keyword w).rest (fun _ _ hls => by rw [hls.1]; exact (hg hls.2).any) (Nat.le_refl 12)

end Parses

namespace Rules

variable {r m d d' : Nat}

omit [Hereditary I] in
theorem zero : Rules I P Q r m 0 d' where
  statement := .out (by decide)
  block := .out (by decide)
  conditional := .out (by decide)
  function := .out (by decide)
  method access isStatic := .out (by decide)
  classDef := .out (by decide)
  expression := .out (by decide)
  binary level hlevel := .out (by rw [BinaryOp.lastLevel] at hlevel; omega)
  unary := .out (by decide)
  primary := .out (by decide)

variable (h : Rules I P Q r m d d') (hc : Grammar I r P Q)

include h

theorem block_succ : Parses I (r + 1) (m + 1) (d + 1) 1 1 anyToken .nothing (Body Q)
    (Parser.block r (d + 1)) (Parser.block m (d' + 1)) := by
  rw [Parser.block, Parser.block]
  have statements : Parses I r m (d + 1) 12 0 anyToken .whole (fun ls body =>
      ∃ os, Each (OrEmpty Q) ls os ∧
      body = os.filterMap id) (statementsUntil r (.symbol .rbrace) (Parser.statement r d))
      (statementsUntil m (.symbol .rbrace) (Parser.statement m d')) :=
    (h.statement.inner (by decide)).itemsUntil.ret _ fun ls os hos => ⟨os, hos, rfl⟩
  refine (Parses.symbol .lbrace).onward (fun _ ls hls => ?_) (Nat.le_refl 1)
  subst hls
  exact statements.bind fun body ms ⟨os, hos, hbody⟩ => .past (.pure ⟨ms, os, rfl, hos, hbody⟩)

theorem method_succ (access : Access) (isStatic : Bool) :
    Parses I (r + 1) (m + 1) (d + 1) 1 1 anyToken .nothing (fun _ => GoodMethod I Q)
      (Parser.method r (d + 1) access isStatic) (Parser.method m (d' + 1) access isStatic) := by
  rw [Parser.method, Parser.method]
  refine .enter fun _ => Parses.name.bind fun mname _ _ => Parses.parameters.bind
    fun params _ hparams => ?_
  obtain ⟨ms, -, hparams⟩ := hparams
  refine (h.block.inner (by decide)).ret _ fun ls body hbody => ⟨fun x hx => ?_, ls, hbody⟩
  obtain ⟨_, -, hseen⟩ := hparams.forall x hx
  exact hseen

include hc

theorem function_succ :
    Parses I (r + 1) (m + 1) (d + 1) 1 1 anyToken .nothing (fun ls f => P ls (.function f))
      (Parser.function r (d + 1)) (Parser.function m (d' + 1)) := by
  rw [Parser.function, Parser.function]
  have tail (name : Option String) (hname : ∀ x ∈ name, Seen I (.name x)) :
      Parses I r m (d + 1) 12 1 anyToken .nothing
        (fun ls f => P (.keyword .functWord :: (name.toList.map .name ++ ls)) (.function f))
        (Parser.parameters r >>= fun params => Parser.block r d >>= fun body =>
          pure ⟨name, params, body⟩)
        (Parser.parameters m >>= fun params => Parser.block m d' >>= fun body =>
          pure ⟨name, params, body⟩) := by
    refine Parses.parameters.bind fun params ls hparams => ?_
    obtain ⟨ms, rfl, hparams⟩ := hparams
    exact (h.block.inner (by decide)).ret _ fun ns body hbody =>
      hc.function (f := ⟨name, params, body⟩) hname hparams hbody
  refine .enter fun _ => .sees ?_ ((tail none nofun).starting fun _ _ => trivial)
  refine Parses.someName.bind fun fname ls hname => ?_
  obtain ⟨x, rfl, rfl, hseen⟩ := hname
  exact tail (some x) (by simpa using hseen)

theorem conditional_succ : Parses I (r + 1) (m + 1) (d + 1) 1 1 anyToken .elseWord Q
    (Parser.conditional r (d + 1)) (Parser.conditional m (d' + 1)) := by
  rw [Parser.conditional, Parser.conditional]
  refine .enter fun _ => .past ((h.expression.inner (by decide)).bind fun c ls hcond => .past
    ((h.block.inner (by decide)).last fun t ms ht => .accept Lexeme.kind_eq_keyword nofun
      (Parses.less (Parses.any (k := 1) (.sees ?_ ?_))) (.pure (hc.cond hcond ht rfl))))
  · exact (h.conditional.inner (by decide)).ret _ fun ns s hs =>
      hc.cond hcond ht ⟨ns, rfl, .inr ⟨s, rfl, hs⟩⟩
  · exact (h.block.inner (by decide)).ret _ fun ns e he => hc.cond hcond ht ⟨ns, rfl, .inl he⟩

theorem classDef_succ :
    Parses I (r + 1) (m + 1) (d + 1) 1 1 anyToken .nothing (fun ls c => Q ls (.classDef c))
      (Parser.classDef r (d + 1)) (Parser.classDef m (d' + 1)) := by
  have members : Parses I r m (d + 1) 12 0 anyToken .whole (Each fun _ => GoodMember I P Q)
      (itemsUntil (.symbol .rbrace) _ r) (itemsUntil (.symbol .rbrace) _ m) :=
    ((h.expression.inner (by decide)).classMember fun access isStatic =>
      (h.method access isStatic).inner (by decide)).itemsUntil
  have built {cname : String} {parent : Option String} {ls ns : List Lexeme} {ms : List _}
      (hclass : Seen I (.keyword .classWord)) (hname : Seen I (.name cname))
      (hms : Each (fun _ => GoodMember I P Q) ns ms)
      (hlast : ls.getLast? = some (.symbol .rbrace)) :
      Q (.keyword .classWord :: ls)
        (.classDef ⟨cname, parent, ms.filterMap fun m => m.getLeft?, ms.filterMap fun m =>
          m.getRight?,
        0⟩) := by
    refine hc.classDef hclass hname ?_ ?_ hlast
    · intro m hm
      obtain ⟨m', hmem, heq⟩ := List.mem_filterMap.1 hm
      obtain rfl := Sum.getLeft?_eq_some_iff.1 heq
      exact (hms.forall _ hmem).elim fun _ h => h
    · intro p hp
      obtain ⟨p', hmem, heq⟩ := List.mem_filterMap.1 hp
      obtain rfl := Sum.getRight?_eq_some_iff.1 heq
      exact (hms.forall _ hmem).elim fun _ h => h
  rw [Parser.classDef, Parser.classDef]
  refine .enter fun hclass => Parses.name.bind fun cname ls hname =>
    .accept Lexeme.kind_eq_keyword nofun
    (Parses.less (Parses.someName.bind fun parent ms _ => ?_)) ?_
  · exact .past (members.bind fun ms ns hms => .past (.pure (built hclass hname.2 hms (by
      simp [List.getLast?_cons, List.getLast?_append]))))
  · simp only [Bool.false_eq_true, if_false, pure_bind]
    exact .past (members.bind fun ms ns hms => .past (.pure (built hclass hname.2 hms (by
      simp [List.getLast?_cons, List.getLast?_append]))))

theorem statement_succ : Parses I (r + 1) (m + 1) (d + 1) 11 1 anyToken .elseWord (OrEmpty Q)
    (Parser.statement r (d + 1)) (Parser.statement m (d' + 1)) := by
  have expression : Parses I r m (d + 1) 12 1 anyToken .whole P _ _ :=
    h.expression.inner (by decide)
  have block : Parses I r m (d + 1) 12 1 anyToken .nothing (Body Q) _ _ := h.block.inner (by decide)
  rw [Parser.statement, Parser.statement]
  refine .peek (fun _ => rfl) (absurd · Nat.one_ne_zero)
    (fun t t' ht => by rw [ht]; exact fun _ _ => id) fun t _ _ => ?_
  have pass {l : Lexeme} {p q : Unit → Parser (Option Stmt)} {k : Nat} (ht : t.lexeme = l)
      (hl : decide (l.kind = .finish) = false)
      (hrest : Parses I r m (d + 1) 12 k anyToken .elseWord (fun ls => OrEmpty Q (l :: ls))
        (p ()) (q ())) :
      Parses I (r + 1) (m + 1) (d + 1) 11 1 (· = t) .elseWord (OrEmpty Q) (advance >>= p)
      (advance >>= q) :=
    .skip ht hl hrest (by decide)
  generalize ht : t.lexeme = l
  split
  · exact (h.classDef.deeper (by decide)).ret _ fun _ _ hclass => hclass
  · exact (h.function.deeper (by decide)).onward (fun f ls hf => .past (.pure (hc.expr hf)))
      (by decide)
  · exact (h.conditional.deeper (by decide)).map some fun _ _ hs => hs
  · exact pass ht rfl (.past (expression.bind fun c ls hcond => .past
      (block.ret _ fun ms body hbody => hc.whileLoop hcond hbody)))
  · exact pass ht rfl (block.bind fun body ls hbody =>
      .pastWord (.past (expression.bind fun c ms hcond =>
      .past (.past (.pure (hc.doLoop hbody hcond))))))
  · exact pass ht rfl (.past ((expression.optional _).bind fun i ls hi => .past
      ((expression.optional _).bind fun c ms hcond =>
        .past ((expression.optional _).bind fun s ns hs => .past
        (block.ret _ fun os body hbody => hc.forLoop hi hcond hs hbody)))))
  · exact pass ht rfl (.past (.pure hc.breakOut))
  · exact pass ht rfl (.past (.pure hc.continueOn))
  · exact pass ht rfl ((expression.optional _).bind fun v ls hv => .past (.pure (hc.returnBack hv)))
  · exact (h.block.deeper (by decide)).ret _ fun _ _ hbody => hc.block hbody
  · exact pass ht rfl (.pure rfl)
  · exact (h.expression.deeper (by decide)).onward (fun e ls he => .past (.pure (hc.expr he)))
      (by decide)

theorem expression_succ : Parses I (r + 1) (m + 1) (d + 1) 10 1 anyToken .whole P
    (Parser.expression r (d + 1)) (Parser.expression m (d' + 1)) := by
  rw [Parser.expression, Parser.expression]
  refine ((h.binary 0 (Nat.zero_le _)).deeper (by decide)).rest (fun target ls htarget => .sees ?_
    (.pure (by simpa using htarget))) (by decide : 12 ≤ 10 + 11)
  have value {f : Expr → Expr} (hf : ∀ ms e, P ms e → P (ls ++ .symbol .assign :: ms) (f e)) :
      Parses I r m (d + 1) 12 0 (fun t => t.kind = .symbol .assign) .whole (fun ms => P (ls ++ ms))
        (advance >>= fun _ => Parser.expression r d >>= fun e => pure (f e))
        (advance >>= fun _ => Parser.expression m d' >>= fun e => pure (f e)) := by
    refine ((Parses.advance (fun _ => Lexeme.kind_eq_symbol.1) nofun).last fun _ ms hms => ?_).any
    subst hms
    exact ((h.expression.inner (by decide)).ret f hf).any
  rw [if_pos rfl, if_pos rfl]
  split
  · exact value fun _ _ => hc.assign htarget
  · exact value fun _ _ => hc.assignIndex htarget
  · exact value fun _ _ => hc.assignMember htarget
  · exact .refuse fun t ht => ⟨t, List.mem_singleton_self t, ht⟩

theorem binary_succ (level : Nat) (hlevel : level ≤ BinaryOp.lastLevel) :
    Parses I (r + 1) (m + 1) (d + 1) (9 - level) 1 anyToken .whole P (Parser.binary r (d + 1) level)
      (Parser.binary m (d' + 1) level) := by
  have operand : Parses I (r + 1) (m + 1) (d + 1) (9 - level) 1 anyToken .whole P
      (if level < BinaryOp.lastLevel then Parser.binary r d (level + 1) else Parser.unary r d)
      (if level < BinaryOp.lastLevel then Parser.binary m d'
        (level + 1) else Parser.unary m d') := by
    rw [BinaryOp.lastLevel] at hlevel ⊢
    split
    · next hlt => exact (h.binary (level + 1) hlt).deeper (by omega)
    · exact h.unary.deeper (by omega)
  rw [Parser.binary, Parser.binary]
  exact operand.rest (fun left ls hleft => operand.less.chain hc level hleft) (Nat.le_add_right _ _)

theorem unary_succ : Parses I (r + 1) (m + 1) (d + 1) 3 1 anyToken .whole P (Parser.unary r (d + 1))
    (Parser.unary m (d' + 1)) := by
  rw [Parser.unary, Parser.unary]
  refine .peek (fun _ => rfl) (absurd · Nat.one_ne_zero)
    (fun t t' ht => by rw [ht]; exact fun _ _ => id) fun t _ _ => ?_
  split
  · next op hop =>
    exact .skip (l := .symbol op.symbol) (symbol_of_ofLexeme? hop) rfl
      ((h.unary.inner (by decide)).ret _ fun _ _ => hc.unary) (by decide)
  · refine (h.primary.deeper (by decide)).rest (fun e ls he => ?_) (by decide : 12 ≤ 3 + 11)
    exact Parses.suffixes hc (h.expression.inner (by decide)) (Nat.le_refl _) (Nat.le_refl _) he

theorem primary_succ :
    Parses I (r + 1) (m + 1) (d + 1) 2 1 anyToken .whole P (Parser.primary r (d + 1))
      (Parser.primary m (d' + 1)) := by
  have expression : Parses I r m (d + 1) 12 1 anyToken .whole P _ _ :=
    h.expression.inner (by decide)
  rw [Parser.primary, Parser.primary]
  refine .peek (fun _ => rfl) (absurd · Nat.one_ne_zero) (fun t t' ht vs x => ?_)
    fun t _ hseen => ?_
  · rw [ht]
    generalize t'.lexeme = l
    split <;> first | exact id | exact fun h => by cases h
  have pass {l : Lexeme} {p q : Unit → Parser Expr} {k : Nat} (ht : t.lexeme = l)
      (hl : decide (l.kind = .finish) = false)
      (hrest : Parses I r m (d + 1) 12 k anyToken .whole (fun ls => P (l :: ls)) (p ()) (q ())) :
      Parses I (r + 1) (m + 1) (d + 1) 2 1 (· = t) .whole P (advance >>= p) (advance >>= q) :=
    .skip ht hl hrest (by decide)
  have literal {l : Lexeme} (v : Literal) (ht : t.lexeme = l)
      (hl : decide (l.kind = .finish) = false) (hv : v.lexeme = l) :
      Parses I (r + 1) (m + 1) (d + 1) 2 1 (· = t) .whole P (advance >>= fun _ => pure (.literal v))
        (advance >>= fun _ => pure (.literal v)) :=
    pass ht hl (.pure (hv ▸ hc.literal v))
  rw [Token.kind] at hseen
  generalize ht : t.lexeme = l at hseen ⊢
  split
  · exact literal (.whole _) ht rfl rfl
  · exact literal (.real _) ht rfl rfl
  · exact literal (.text _) ht rfl rfl
  · exact pass ht rfl (.pure (hc.name (hseen (of_decide_eq_false rfl))))
  · exact pass ht rfl (expression.bind fun e ls he => .past (.pure (hc.inParens he)))
  · have fields : Parses I (r + 1) (m + 1) (d + 1) 2 1 (· = t) .nothing
        (fun ls fs => ∃ ms, ls = .symbol .lbrace :: ms ∧ Listed (Field P) .rbrace ms fs)
        (advance >>= fun _ => listUntil r .rbrace (field (Parser.expression r d)))
        (advance >>= fun _ => listUntil m .rbrace (field (Parser.expression m d'))) :=
      .skip ht rfl (expression.field.listUntil.weaken fun ls _ hfs => ⟨ls, rfl, hfs⟩)
      (by decide : 12 ≤ 13)
    have built : Parses I (r + 1) (m + 1) (d + 1) 2 1 (· = t) .whole P _ _ :=
      fields.remembered.ret (fun fs => .object (fs.foldl (fun fs f => putField f.1 f.2 fs) []))
      fun _ fs hfs => by
        obtain ⟨⟨ms, rfl, hfs⟩, e, ts, rest, hI, hstart, hrun⟩ := hfs
        exact hc.object hfs ⟨e, ts, rest, d, hI, hstart ▸ ht, hrun⟩
    rwa [bind_assoc, bind_assoc] at built
  · exact pass ht rfl (expression.listUntil.ret _ fun ls xs hxs => hc.array hxs)
  · exact (h.function.deeper (by decide)).ret _ fun _ _ hf => hf
  · exact literal (.bool true) ht rfl rfl
  · exact literal (.bool false) ht rfl rfl
  · exact literal .null ht rfl rfl
  · refine pass ht rfl (Parses.name.bind fun x ls hx =>
      .past (expression.listUntil.ret _ fun ms xs hxs => ?_))
    rw [hx.1]
    exact hc.new hxs
  · exact pass ht rfl (.pure hc.this)
  · exact .refuse fun u hu => ⟨u, List.mem_singleton_self u, hu ▸ ⟨rfl, rfl, rfl⟩⟩

theorem succ : Rules I P Q r m (d + 1) (d' + 1) where
  statement := h.statement_succ hc
  block := h.block_succ
  conditional := h.conditional_succ hc
  function := h.function_succ hc
  method := h.method_succ
  classDef := h.classDef_succ hc
  expression := h.expression_succ hc
  binary := h.binary_succ hc
  unary := h.unary_succ hc
  primary := h.primary_succ hc

omit h in
theorem all (hd : d ≤ d') : Rules I P Q r m d d' := by
  induction d generalizing d' with
  | zero => exact zero
  | succ d ih =>
    obtain ⟨d', rfl⟩ := Nat.exists_eq_add_of_le' (Nat.one_le_of_lt hd)
    exact (ih (Nat.le_of_succ_le_succ hd)).succ hc

end Rules

end Parser

end ScriptLang
