import ScriptLang.Text.Quoted

/-!
# Message digests

The digests that files and texts are given by: MD5, SHA-1 and the SHA-2 family. A message is padded
to whole blocks, each block is cut into words, and a state of words absorbs one block after the
other. The constants of SHA-2 are the leading fractional bits of square and cube roots of primes,
and are computed as such.
-/

namespace ScriptLang.Digest

/-- Pieces of a list, `k` items each, the last one maybe shorter. -/
def chunks {α : Type} (k : Nat) (xs : List α) : List (List α) :=
  if h : k = 0 ∨ xs = [] then []
  else
    have : (xs.drop k).length < xs.length := by
      have := List.length_pos_iff.mpr (not_or.mp h).2
      have := (not_or.mp h).1
      rw [List.length_drop]
      omega
    xs.take k :: chunks k (xs.drop k)
termination_by xs.length

/-- The number that bytes stand for, the most significant one first. -/
def ofBytes (bytes : List UInt8) : Nat :=
  bytes.foldl (fun n b => n * 256 + b.toNat) 0

/-- The lowest `count` bytes of a number, the most significant one first. -/
def toBytes (count n : Nat) : List UInt8 :=
  (List.range count).reverse.map fun i => (n >>> (8 * i) % 256).toUInt8

inductive ByteOrder where
  | big | little

/-- Puts bytes that start with the most significant one into an order, or back. -/
def ByteOrder.arrange (o : ByteOrder) (bytes : List UInt8) : List UInt8 :=
  match o with
  | .big => bytes
  | .little => bytes.reverse

/-- A message with a one bit, zeros and its length in bits after it, so that it fills whole
blocks. -/
def pad (o : ByteOrder) (block lengthField : Nat) (message : List UInt8) : List UInt8 :=
  let used := message.length + 1 + lengthField
  let zeros := (block - used % block) % block
  message ++ 0x80 :: List.replicate zeros 0
    ++ o.arrange (toBytes lengthField (8 * message.length))

def wordsOf (o : ByteOrder) (w : Nat) (block : List UInt8) : Array (BitVec w) :=
  ((chunks (w / 8) block).map fun bs => BitVec.ofNat w (ofBytes (o.arrange bs))).toArray

def bytesOf (o : ByteOrder) {w : Nat} (words : List (BitVec w)) : List UInt8 :=
  words.flatMap fun x => o.arrange (toBytes (w / 8) x.toNat)

/-- The amounts by which MD5 turns a word, four for each quarter of its steps. -/
def md5Turns : List (List Nat) :=
  [[7, 12, 17, 22], [5, 9, 14, 20], [4, 11, 16, 23], [6, 10, 15, 21]]

/-- The constants of the steps of MD5: the leading fractional bits of sines. -/
def md5Constants : List Nat :=
  [0xd76aa478, 0xe8c7b756, 0x242070db, 0xc1bdceee, 0xf57c0faf, 0x4787c62a, 0xa8304613, 0xfd469501,
   0x698098d8, 0x8b44f7af, 0xffff5bb1, 0x895cd7be, 0x6b901122, 0xfd987193, 0xa679438e, 0x49b40821,
   0xf61e2562, 0xc040b340, 0x265e5a51, 0xe9b6c7aa, 0xd62f105d, 0x02441453, 0xd8a1e681, 0xe7d3fbc8,
   0x21e1cde6, 0xc33707d6, 0xf4d50d87, 0x455a14ed, 0xa9e3e905, 0xfcefa3f8, 0x676f02d9, 0x8d2a4c8a,
   0xfffa3942, 0x8771f681, 0x6d9d6122, 0xfde5380c, 0xa4beea44, 0x4bdecfa9, 0xf6bb4b60, 0xbebfbc70,
   0x289b7ec6, 0xeaa127fa, 0xd4ef3085, 0x04881d05, 0xd9d4d039, 0xe6db99e5, 0x1fa27cf8, 0xc4ac5665,
   0xf4292244, 0x432aff97, 0xab9423a7, 0xfc93a039, 0x655b59c3, 0x8f0ccc92, 0xffeff47d, 0x85845dd1,
   0x6fa87e4f, 0xfe2ce6e0, 0xa3014314, 0x4e0811a1, 0xf7537e82, 0xbd3af235, 0x2ad7d2bb, 0xeb86d391]

abbrev Quad := BitVec 32 × BitVec 32 × BitVec 32 × BitVec 32

def md5Step (words : Array (BitVec 32)) (s : Quad) (step : Nat × Nat) : Quad :=
  let (i, k) := step
  let (a, b, c, d) := s
  let (f, g) :=
    if i < 16 then ((b &&& c) ||| (~~~b &&& d), i)
    else if i < 32 then ((d &&& b) ||| (~~~d &&& c), (5 * i + 1) % 16)
    else if i < 48 then (b ^^^ c ^^^ d, (3 * i + 5) % 16)
    else (c ^^^ (b ||| ~~~d), 7 * i % 16)
  let turn := (md5Turns.getD (i / 16) []).getD (i % 4) 0
  (d, b + (a + f + BitVec.ofNat 32 k + words.getD g 0).rotateLeft turn, b, c)

def md5 (message : List UInt8) : List UInt8 :=
  let steps := (List.range 64).zip md5Constants
  let start : Quad := (0x67452301#32, 0xefcdab89#32, 0x98badcfe#32, 0x10325476#32)
  let (a, b, c, d) := (chunks 64 (pad .little 64 8 message)).foldl (fun (s : Quad) block =>
    let t := steps.foldl (md5Step (wordsOf .little 32 block)) s
    (s.1 + t.1, s.2.1 + t.2.1, s.2.2.1 + t.2.2.1, s.2.2.2 + t.2.2.2)) start
  bytesOf .little [a, b, c, d]

/-- The words of a block followed by words made from earlier ones, `count` in all. -/
def extend {w : Nat} (next : Array (BitVec w) → BitVec w) (count : Nat) (words : Array (BitVec w)) :
    Array (BitVec w) :=
  (List.range (count - words.size)).foldl (fun ws _ => ws.push (next ws)) words

/-- The word `back` places before the end. -/
def before {w : Nat} (ws : Array (BitVec w)) (back : Nat) : BitVec w :=
  ws.getD (ws.size - back) 0

def sha1Step (s : Array (BitVec 32)) (step : Nat × BitVec 32) : Array (BitVec 32) :=
  let (i, x) := step
  let at' (j : Nat) := s.getD j 0
  let (f, k) :=
    if i < 20 then ((at' 1 &&& at' 2) ||| (~~~at' 1 &&& at' 3), 0x5a827999#32)
    else if i < 40 then (at' 1 ^^^ at' 2 ^^^ at' 3, 0x6ed9eba1#32)
    else if i < 60 then
      ((at' 1 &&& at' 2) ||| (at' 1 &&& at' 3) ||| (at' 2 &&& at' 3), 0x8f1bbcdc#32)
    else (at' 1 ^^^ at' 2 ^^^ at' 3, 0xca62c1d6#32)
  List.toArray
    [(at' 0).rotateLeft 5 + f + at' 4 + k + x, at' 0, (at' 1).rotateLeft 30, at' 2, at' 3]

def addWords {w : Nat} (s t : Array (BitVec w)) : Array (BitVec w) :=
  s.zipWith (· + ·) t

def sha1 (message : List UInt8) : List UInt8 :=
  let start := #[0x67452301#32, 0xefcdab89#32, 0x98badcfe#32, 0x10325476#32, 0xc3d2e1f0#32]
  let next (ws : Array (BitVec 32)) :=
    (before ws 3 ^^^ before ws 8 ^^^ before ws 14 ^^^ before ws 16).rotateLeft 1
  let final := (chunks 64 (pad .big 64 8 message)).foldl (fun s block =>
    let words := extend next 80 (wordsOf .big 32 block)
    addWords s (((List.range 80).zip words.toList).foldl sha1Step s)) start
  bytesOf .big final.toList

/-- The greatest number whose `k`-th power is at most `n`, given its bits above the lowest `b`. -/
def rootFrom (k n : Nat) : Nat → Nat → Nat
  | 0, r => r
  | b + 1, r => rootFrom k n b (if Nat.pow (r + 1 <<< b) k ≤ n then r + 1 <<< b else r)

/-- The first `bits` bits after the point of the `k`-th root of a number below 512. -/
def rootFraction (k bits n : Nat) : Nat :=
  rootFrom k (n <<< (k * bits)) (bits + 5) 0 % 1 <<< bits

/-- The primes below 410, eighty of them. -/
def primes : List Nat :=
  (List.range 410).filter fun n => 2 ≤ n && (List.range n).all fun d => d < 2 || n % d != 0

def sha512Constants : List Nat :=
  primes.map (rootFraction 3 64)

def sha512Start : List Nat :=
  (primes.take 8).map (rootFraction 2 64)

def sha384Start : List Nat :=
  ((primes.drop 8).take 8).map (rootFraction 2 64)

/-- A member of the SHA-2 family by its word width: its constants and the amounts by which it turns
words; of the last two triples the third amount is a shift. -/
structure Sha2 (w : Nat) where
  constants : List (BitVec w)
  upperA : Nat × Nat × Nat
  upperE : Nat × Nat × Nat
  lowerOld : Nat × Nat × Nat
  lowerNew : Nat × Nat × Nat

def turned {w : Nat} (r : Nat × Nat × Nat) (x : BitVec w) : BitVec w :=
  x.rotateRight r.1 ^^^ x.rotateRight r.2.1 ^^^ x.rotateRight r.2.2

/-- A word turned by two amounts and shifted by a third. -/
def shifted {w : Nat} (r : Nat × Nat × Nat) (x : BitVec w) : BitVec w :=
  x.rotateRight r.1 ^^^ x.rotateRight r.2.1 ^^^ x >>> r.2.2

def Sha2.step {w : Nat} (p : Sha2 w) (s : Array (BitVec w)) (step : BitVec w × BitVec w) :
    Array (BitVec w) :=
  let at' (j : Nat) := s.getD j 0
  let choice := (at' 4 &&& at' 5) ^^^ (~~~at' 4 &&& at' 6)
  let majority := (at' 0 &&& at' 1) ^^^ (at' 0 &&& at' 2) ^^^ (at' 1 &&& at' 2)
  let t := at' 7 + turned p.upperE (at' 4) + choice + step.1 + step.2
  List.toArray
    [t + turned p.upperA (at' 0) + majority, at' 0, at' 1, at' 2, at' 3 + t, at' 4, at' 5, at' 6]

def Sha2.digest {w : Nat} (p : Sha2 w) (start : List (BitVec w)) (message : List UInt8) :
    List UInt8 :=
  let next (ws : Array (BitVec w)) :=
    before ws 16 + shifted p.lowerOld (before ws 15) + before ws 7
      + shifted p.lowerNew (before ws 2)
  let block := 2 * w
  let final := (chunks block (pad .big block (w / 4) message)).foldl (fun s bytes =>
    let words := extend next p.constants.length (wordsOf .big w bytes)
    addWords s ((p.constants.zip words.toList).foldl p.step s)) start.toArray
  bytesOf .big final.toList

def narrow : Sha2 32 where
  constants := (sha512Constants.take 64).map fun n => BitVec.ofNat 32 (n >>> 32)
  upperA := (2, 13, 22)
  upperE := (6, 11, 25)
  lowerOld := (7, 18, 3)
  lowerNew := (17, 19, 10)

def wide : Sha2 64 where
  constants := sha512Constants.map (BitVec.ofNat 64)
  upperA := (28, 34, 39)
  upperE := (14, 18, 41)
  lowerOld := (1, 8, 7)
  lowerNew := (19, 61, 6)

def sha224 (message : List UInt8) : List UInt8 :=
  (narrow.digest (sha384Start.map (BitVec.ofNat 32)) message).take 28

def sha256 (message : List UInt8) : List UInt8 :=
  narrow.digest (sha512Start.map fun n => BitVec.ofNat 32 (n >>> 32)) message

def sha384 (message : List UInt8) : List UInt8 :=
  (wide.digest (sha384Start.map (BitVec.ofNat 64)) message).take 48

def sha512 (message : List UInt8) : List UInt8 :=
  wide.digest (sha512Start.map (BitVec.ofNat 64)) message

def algorithms : List (String × (List UInt8 → List UInt8)) :=
  [("md5", md5), ("ssl3-md5", md5), ("sha1", sha1), ("sha-1", sha1), ("ssl3-sha1", sha1),
   ("md5-sha1", fun m => md5 m ++ sha1 m),
   ("sha224", sha224), ("sha-224", sha224), ("sha2-224", sha224),
   ("sha256", sha256), ("sha-256", sha256), ("sha2-256", sha256),
   ("sha384", sha384), ("sha-384", sha384), ("sha2-384", sha384),
   ("sha512", sha512), ("sha-512", sha512), ("sha2-512", sha512)]

/-- The digest with a name, whatever the case of its letters. -/
def named? (name : String) : Option (List UInt8 → List UInt8) :=
  algorithms.lookup (name.map Char.toLower)

def hexText (bytes : List UInt8) : String :=
  String.ofList (bytes.flatMap fun b => Text.hex 2 b.toNat)

end ScriptLang.Digest
