import ScriptLang.Number.Binary64

/-!
# Decimal text of numbers

`shortest` gives the fewest digits that read back as the same float, and of those the nearest to
it. `Layout` fixes how digits become text: where positional notation ends, how the exponent is
written. `fixed` writes a given number of places of the exact value.
-/

namespace ScriptLang.Number

def digits (n : Nat) : List Char :=
  Nat.toDigits 10 n

def reaches (num den : Nat) (k : Int) : Bool :=
  match k with
  | .ofNat n => den * pow10 n ≤ num
  | .negSucc n => den ≤ num * pow10 (n + 1)

/-- `k` is the greatest power with `10 ^ k ≤ num / den`, found from an estimate that is off by one
at most. -/
def decimalExponent (num den : Nat) : Int :=
  let e2 : Int := (Nat.log2 num : Int) - (Nat.log2 den : Int)
  let est : Int := (e2 * 30103).fdiv 100000
  if reaches num den (est + 1) then est + 1
  else if reaches num den est then est
  else if reaches num den (est - 1) then est - 1
  else est - 2

/-- The whole numbers `c` around `num / den / 10 ^ k`, as the ratio they come from. -/
def gridRatio (num den : Nat) (k : Int) : Nat × Nat :=
  match k with
  | .ofNat n => (num, den * pow10 n)
  | .negSucc n => (num * pow10 (n + 1), den)

/-- Whether the grid point `c * 10 ^ k` lies between `lo * 2 ^ q` and `hi * 2 ^ q`; `closed` says
whether the ends belong to the interval. -/
def between (lo hi : Nat) (q : Int) (closed : Bool) (k : Int) (c : Nat) : Bool :=
  let l := gridRatio (ratioOf lo q).1 (ratioOf lo q).2 k
  let h := gridRatio (ratioOf hi q).1 (ratioOf hi q).2 k
  if closed then l.1 ≤ c * l.2 && c * h.2 ≤ h.1 else l.1 < c * l.2 && c * h.2 < h.1

/-- Searches the grids with `n`, `n + 1`, … digits for a point that rounds to the float
`4 * m * 2 ^ q`; `lo` and `hi` are the ends of the interval of numbers that do, in the same unit,
and `closed` says whether the ends belong to it. Gives the digits as a number and the place of the
last one. -/
def shortestFrom (m4 lo hi : Nat) (q : Int) (closed : Bool) (e : Int) : Nat → Nat → Nat × Int
  | 0, _ =>
      let r := ratioOf m4 q
      let g := gridRatio r.1 r.2 (e - 16)
      (roundHalfEven g.1 g.2, e - 16)
  | fuel + 1, n =>
      let k := e - n + 1
      let r := ratioOf m4 q
      let g := gridRatio r.1 r.2 k
      let below := g.1 / g.2
      let a := between lo hi q closed k below
      let b := between lo hi q closed k (below + 1)
      if a && b then
        (if 2 * (g.1 % g.2) < g.2 then (below, k)
         else if g.2 < 2 * (g.1 % g.2) then (below + 1, k)
         else if below % 2 == 0 then (below, k) else (below + 1, k))
      else if a then (below, k)
      else if b then (below + 1, k)
      else shortestFrom m4 lo hi q closed e fuel (n + 1)

/-- The shortest digits of the positive float `m * 2 ^ q`, as a number and the place of its last
digit. The gap below a power of two is half the gap above it. -/
def shortest (m : Nat) (q : Int) : Nat × Int :=
  let m4 := 4 * m
  let lo := if m == pow2 52 && -1074 < q then m4 - 1 else m4 - 2
  let hi := m4 + 2
  let r := ratioOf m4 (q - 2)
  let e := decimalExponent r.1 r.2
  shortestFrom m4 lo hi (q - 2) (m % 2 == 0) e 17 1

/-- Drops trailing zeros of a digit number, raising the place of the last digit. -/
def dropZeros : Nat → Nat → Int → Nat × Int
  | 0, d, k => (d, k)
  | fuel + 1, d, k => if d != 0 && d % 10 == 0 then dropZeros fuel (d / 10) (k + 1) else (d, k)

structure Layout where
  /-- exponents below this are written with an exponent mark -/
  least : Int
  /-- exponents from this on are written with an exponent mark -/
  limit : Int
  /-- whether a whole number keeps one place after the point -/
  keepsPoint : Bool
  /-- the least number of digits of an exponent -/
  exponentWidth : Nat
  nan : String
  infinite : String

/-- The text of floats in this language: positional from `1e-4` up to below `1e16`, one place kept
after the point, at least two digits of exponent. -/
def plain : Layout :=
  { least := -4, limit := 16, keepsPoint := true, exponentWidth := 2, nan := "nan",
    infinite := "inf" }

/-- The text of floats inside structured data: like `plain`, with the names of the special values
spelled out. -/
def structured : Layout :=
  { plain with nan := "NaN", infinite := "Infinity" }

/-- The exponent as text: a sign and at least `width` digits. -/
def exponentText (width : Nat) (e : Int) : List Char :=
  let ds := digits e.natAbs
  (if e < 0 then '-' else '+') :: List.replicate (width - ds.length) '0' ++ ds

/-- Positional or exponent notation of the digits `ds`, whose first has the place `e`. -/
def layOut (f : Layout) (ds : List Char) (e : Int) : List Char :=
  if e < f.least || f.limit ≤ e then
    match ds with
    | [] => []
    | [d] => d :: 'e' :: exponentText f.exponentWidth e
    | d :: rest => d :: '.' :: rest ++ 'e' :: exponentText f.exponentWidth e
  else if e < 0 then
    '0' :: '.' :: List.replicate (e.natAbs - 1) '0' ++ ds
  else
    let n := e.toNat + 1
    let whole := ds.take n ++ List.replicate (n - ds.length) '0'
    let places := ds.drop n
    if places.isEmpty then whole ++ (if f.keepsPoint then ['.', '0'] else [])
    else whole ++ '.' :: places

def magnitude (f : Layout) (m : Nat) (q : Int) : List Char :=
  if m = 0 then layOut f ['0'] 0
  else
    let s := shortest m q
    let t := dropZeros 20 s.1 s.2
    let ds := digits t.1
    layOut f ds (t.2 + ds.length - 1)

def written (f : Layout) (x : Float) : String :=
  match Binary.ofFloat x with
  | .nan => f.nan
  | .infinite neg => (if neg then "-" else "") ++ f.infinite
  | .finite neg m q => String.ofList ((if neg then ['-'] else []) ++ magnitude f m q)

/-- A whole number of `places`-th parts with its point. -/
def pointed (places n : Nat) : List Char :=
  if places = 0 then digits n
  else
    let ds := digits n
    let ds := List.replicate (places + 1 - ds.length) '0' ++ ds
    ds.take (ds.length - places) ++ '.' :: ds.drop (ds.length - places)

/-- A float with a given number of places, a half of the exact value to the even neighbour. -/
def fixed (places : Nat) (x : Float) : String :=
  match Binary.ofFloat x with
  | .nan => "nan"
  | .infinite neg => if neg then "-inf" else "inf"
  | .finite neg m q =>
      let r := ratioOf m q
      let n := roundHalfEven (r.1 * pow10 places) r.2
      String.ofList ((if neg then ['-'] else []) ++ pointed places n)

/-- A float with one digit before the point, `places` after it, and an exponent. -/
def scientific (places : Nat) (x : Float) : String :=
  match Binary.ofFloat x with
  | .nan => "nan"
  | .infinite neg => if neg then "-inf" else "inf"
  | .finite neg m q =>
      let r := ratioOf m q
      let e : Int := if m = 0 then 0 else decimalExponent r.1 r.2
      let g := gridRatio r.1 r.2 (e - places)
      let n := roundHalfEven g.1 g.2
      let carried := n == pow10 (places + 1)
      let n := if carried then n / 10 else n
      let e := if carried then e + 1 else e
      String.ofList
        ((if neg then ['-'] else []) ++ pointed places n ++ 'e' :: exponentText 2 e)

/-- Drops zeros at the end of decimal places, and a point that is left without places. -/
def dropPlaces (cs : List Char) : List Char :=
  if cs.contains '.' then
    match cs.reverse.dropWhile (· = '0') with
    | '.' :: rest => rest.reverse
    | rest => rest.reverse
  else cs

/-- A float with at most `count` significant digits, in whichever of the two notations suits its
size; zeros at the end are kept only on demand. -/
def general (count : Nat) (keepZeros : Bool) (x : Float) : String :=
  match Binary.ofFloat x with
  | .nan => "nan"
  | .infinite neg => if neg then "-inf" else "inf"
  | .finite .. =>
      let count := max count 1
      let cs := (scientific (count - 1) x).toList
      let mantissa := cs.takeWhile (· ≠ 'e')
      let tail := cs.dropWhile (· ≠ 'e')
      let e : Int :=
        match tail with
        | _ :: '-' :: ds => -(ds.foldl (fun n c => 10 * n + (c.toNat - 48)) 0 : Nat)
        | _ :: _ :: ds => (ds.foldl (fun n c => 10 * n + (c.toNat - 48)) 0 : Nat)
        | _ => 0
      let tidy (cs : List Char) := if keepZeros then cs else dropPlaces cs
      if -4 ≤ e ∧ e < count then
        String.ofList (tidy (fixed ((count : Int) - 1 - e).toNat x).toList)
      else String.ofList (tidy mantissa ++ tail)

def wholeText (n : Int) : String :=
  String.ofList ((if n < 0 then ['-'] else []) ++ digits n.natAbs)

/-- Whole numbers with more digits than this have no decimal text. -/
def maxDigits : Nat := 4300

/-- The decimal text of a whole number of at most `maxDigits` digits. -/
def wholeText? (n : Int) : Option String :=
  -- `10 ^ 4300` has 14285 binary digits, so a shorter number needs no comparison
  if n.natAbs.log2 < 14284 || n.natAbs < pow10 maxDigits then some (wholeText n) else none

end ScriptLang.Number
