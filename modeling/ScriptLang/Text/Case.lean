import ScriptLang.Text.Letter

/-!
# Case

The case mappings of Unicode 14, full ones included: a character may become several (`ß` becomes
`SS` in capitals), and a capital sigma becomes a final sigma at the end of a word. Each simple
mapping is a list of runs of characters in a row that move by the same distance.
-/

set_option maxRecDepth 8000

namespace ScriptLang.Text

/-- Capitals `(first, count)` that are each followed by their small letter. -/
def alternatingCases : List (Nat × Nat) :=
  [(256,24),(306,3),(313,8),(330,23),(377,3),(386,2),(391,1),(395,1),(401,1),(408,1),
   (416,3),(423,1),(428,1),(431,1),(435,2),(440,1),(444,1),(461,8),(478,9),(500,1),
   (504,20),(546,9),(571,1),(577,1),(582,5),(880,2),(886,1),(984,12),(1015,1),(1018,1),
   (1120,17),(1162,27),(1217,7),(1232,48),(7680,75),(7840,48),(8579,1),(11360,1),(11367,3),
   (11378,1),(11381,1),(11392,50),(11499,2),(11506,1),(42560,23),(42624,14),(42786,7),
   (42802,31),(42873,2),(42878,5),(42891,1),(42896,2),(42902,10),(42932,8),(42951,2),
   (42960,1),(42966,2),(42997,1)]

/-- Runs `(small, capital, count)` of small letters in a row and of their capitals in a row. -/
def distantCases : List (Nat × Nat × Nat) :=
  [(224,192,23),(248,216,7),(255,376,1),(384,579,1),(405,502,1),(410,573,1),(414,544,1),
   (447,503,1),(454,452,1),(457,455,1),(460,458,1),(477,398,1),(499,497,1),(575,11390,2),
   (592,11375,1),(593,11373,1),(594,11376,1),(595,385,1),(596,390,1),(598,393,2),(601,399,1),
   (603,400,1),(604,42923,1),(608,403,1),(609,42924,1),(611,404,1),(613,42893,1),
   (614,42922,1),(616,407,1),(617,406,1),(618,42926,1),(619,11362,1),(620,42925,1),
   (623,412,1),(625,11374,1),(626,413,1),(629,415,1),(637,11364,1),(640,422,1),(642,42949,1),
   (643,425,1),(647,42929,1),(648,430,1),(649,580,1),(650,433,2),(652,581,1),(658,439,1),
   (669,42930,1),(670,42928,1),(891,1021,3),(940,902,1),(941,904,3),(945,913,17),(963,931,9),
   (972,908,1),(973,910,2),(983,975,1),(1010,1017,1),(1011,895,1),(1072,1040,32),
   (1104,1024,16),(1231,1216,1),(1377,1329,38),(4304,7312,43),(4349,7357,3),(5112,5104,6),
   (7545,42877,1),(7549,11363,1),(7566,42950,1),(7936,7944,8),(7952,7960,6),(7968,7976,8),
   (7984,7992,8),(8000,8008,6),(8017,8025,1),(8019,8027,1),(8021,8029,1),(8023,8031,1),
   (8032,8040,8),(8048,8122,2),(8050,8136,4),(8054,8154,2),(8056,8184,2),(8058,8170,2),
   (8060,8186,2),(8112,8120,2),(8144,8152,2),(8160,8168,2),(8165,8172,1),(8526,8498,1),
   (8560,8544,16),(9424,9398,26),(11312,11264,48),(11365,570,1),(11366,574,1),(11520,4256,38),
   (11559,4295,1),(11565,4301,1),(42900,42948,1),(43859,42931,1),(43888,5024,80),
   (65345,65313,26),(66600,66560,40),(66776,66736,36),(66967,66928,11),(66979,66940,15),
   (66995,66956,7),(67003,66964,2),(68800,68736,51),(71872,71840,32),(93792,93760,32),
   (125218,125184,34)]

/-- Runs `(first, capital, count)` of characters that are not the small letters of their
capitals. -/
def upperRuns : List (Nat × Nat × Nat) :=
  [(181,924,1),(305,73,1),(383,83,1),(453,452,1),(456,455,1),(459,458,1),(498,497,1),
   (837,921,1),(962,931,1),(976,914,1),(977,920,1),(981,934,1),(982,928,1),(1008,922,1),
   (1009,929,1),(1013,917,1),(7296,1042,1),(7297,1044,1),(7298,1054,1),(7299,1057,2),
   (7301,1058,1),(7302,1066,1),(7303,1122,1),(7304,42570,1),(7835,7776,1),(8126,921,1)]

/-- Runs `(first, small, count)` of characters that are not the capitals of their small letters. -/
def lowerRuns : List (Nat × Nat × Nat) :=
  [(453,454,1),(456,457,1),(459,460,1),(498,499,1),(1012,952,1),(7838,223,1),(8072,8064,8),
   (8088,8080,8),(8104,8096,8),(8124,8115,1),(8140,8131,1),(8188,8179,1),(8486,969,1),
   (8490,107,1),(8491,229,1)]

/-- Runs `(first, capital, count)` of Greek letters whose capitals are followed by a capital
iota. -/
def iotaRuns : List (Nat × Nat × Nat) :=
  [(8064,7944,8),(8072,7944,8),(8080,7976,8),(8088,7976,8),(8096,8040,8),(8104,8040,8),
   (8114,8122,1),(8115,913,1),(8116,902,1),(8124,913,1),(8130,8138,1),(8131,919,1),
   (8132,905,1),(8140,919,1),(8178,8186,1),(8179,937,1),(8180,911,1),(8188,937,1)]

/-- Other characters whose capitals are several characters. -/
def upperSpecial : List (Nat × List Nat) :=
  [(223,[83,83]),(329,[700,78]),(496,[74,780]),(912,[921,776,769]),(944,[933,776,769]),
   (1415,[1333,1362]),(7830,[72,817]),(7831,[84,776]),(7832,[87,778]),(7833,[89,778]),
   (7834,[65,702]),(8016,[933,787]),(8018,[933,787,768]),(8020,[933,787,769]),
   (8022,[933,787,834]),(8118,[913,834]),(8119,[913,834,921]),(8134,[919,834]),
   (8135,[919,834,921]),(8146,[921,776,768]),(8147,[921,776,769]),(8150,[921,834]),
   (8151,[921,776,834]),(8162,[933,776,768]),(8163,[933,776,769]),(8164,[929,787]),
   (8166,[933,834]),(8167,[933,776,834]),(8182,[937,834]),(8183,[937,834,921]),(64256,[70,70]),
   (64257,[70,73]),(64258,[70,76]),(64259,[70,70,73]),(64260,[70,70,76]),(64261,[83,84]),
   (64262,[83,84]),(64275,[1348,1350]),(64276,[1348,1333]),(64277,[1348,1339]),
   (64278,[1358,1350]),(64279,[1348,1341])]

/-- Characters whose small letters are several characters. -/
def lowerSpecial : List (Nat × List Nat) :=
  [(304,[105,775])]

/-- Characters whose title form is several characters and differs from their capital. -/
def titleSpecial : List (Nat × List Nat) :=
  [(223,[83,115]),(1415,[1333,1410]),(8114,[8122,837]),(8116,[902,837]),(8119,[913,834,837]),
   (8130,[8138,837]),(8132,[905,837]),(8135,[919,834,837]),(8178,[8186,837]),(8180,[911,837]),
   (8183,[937,834,837]),(64256,[70,102]),(64257,[70,105]),(64258,[70,108]),(64259,[70,102,105]),
   (64260,[70,102,108]),(64261,[83,116]),(64262,[83,116]),(64275,[1348,1398]),
   (64276,[1348,1381]),(64277,[1348,1387]),(64278,[1358,1398]),(64279,[1348,1389])]

/-- Runs `(first, title, count)` of characters whose title form differs from their capital. -/
def titleRuns : List (Nat × Nat × Nat) :=
  [(452,453,1),(454,453,1),(455,456,1),(457,456,1),(458,459,1),(460,459,1),(497,498,1),
   (499,498,1),(8064,8072,8),(8080,8088,8),(8096,8104,8),(8115,8124,1),(8131,8140,1),
   (8179,8188,1)]

/-- Title-case letters: neither capital nor small. -/
def titleLetterRanges : List (Nat × Nat) :=
  [(453,453),(456,456),(459,459),(498,498),(8072,8079),(8088,8095),(8104,8111),(8124,8124),
   (8140,8140),(8188,8188)]

/-- Characters above ASCII that have case. -/
def casedRanges : List (Nat × Nat) := rangesFrom 0
  [170,1,10,1,4,1,5,23,1,31,1,195,1,4,4,208,1,36,7,2,30,5,96,1,42,4,2,2,2,4,1,1,6,1,1,3,1,1,1,20,1,
   83,1,139,8,166,1,38,9,41,2839,38,1,1,5,1,2,43,2,3,672,86,2,6,2178,9,7,43,2,3,64,192,64,278,2,6,
   2,38,2,6,2,8,1,1,1,1,1,1,1,31,2,53,1,7,1,1,3,3,1,7,3,4,2,6,4,13,5,3,1,7,116,1,13,1,16,13,101,1,
   4,1,2,10,1,1,3,5,6,1,1,1,1,1,1,4,1,6,4,1,2,4,5,5,4,1,17,32,3,2,817,52,1814,229,6,4,3,2,12,38,1,
   1,5,1,30994,46,18,30,132,102,3,4,1,59,5,2,1,1,1,5,27,2,1,3,821,43,1,13,7,80,20288,7,12,5,1033,
   26,6,26,1189,80,96,36,4,36,116,11,1,15,1,7,1,2,1,11,1,15,1,7,1,2,451,1,2,3,1,42,1,9,1221,51,13,
   51,2989,64,21856,64,25984,85,1,71,1,2,2,1,2,2,2,4,1,12,1,1,1,7,1,65,1,4,2,8,1,7,1,28,1,4,1,5,1,
   1,3,7,1,340,2,25,1,25,1,31,1,25,1,31,1,25,1,31,1,25,1,31,1,25,1,8,1844,10,1,20,2529,68,2028,26,
   6,26,6,26]

/-- Characters that are passed over when looking for the end of a word. -/
def caseIgnorableRanges : List (Nat × Nat) := rangesFrom 0
  [39,1,6,1,11,1,35,1,1,1,71,1,4,1,1,1,4,1,2,2,503,192,4,2,4,1,9,2,1,1,251,7,207,1,5,1,49,45,1,1,1,
   2,1,2,1,1,44,1,11,6,10,11,1,1,35,1,10,21,16,1,101,8,1,10,1,4,33,1,1,1,30,27,91,11,58,11,4,1,2,1,
   24,24,43,3,44,1,7,2,6,8,41,58,55,1,1,1,4,8,4,1,3,7,10,2,13,1,15,1,58,1,4,4,8,1,20,2,26,1,2,2,57,
   1,4,2,4,2,2,3,3,1,30,2,3,1,11,2,57,1,4,5,1,2,4,1,20,2,22,6,1,1,58,1,2,1,1,4,8,1,7,2,11,2,30,1,
   61,1,12,1,50,1,3,1,55,1,1,3,5,3,1,4,7,2,11,2,29,1,58,1,2,1,6,1,5,2,20,2,28,2,57,2,4,4,8,1,20,2,
   29,1,72,1,7,3,1,1,90,1,2,7,11,9,98,1,2,9,9,1,1,6,74,2,27,1,1,1,1,1,55,14,1,5,1,2,5,11,1,36,9,1,
   102,4,1,6,1,2,2,2,25,2,4,3,16,4,13,1,2,2,6,1,15,1,94,1,608,3,946,3,29,2,30,2,30,2,64,2,1,7,8,1,
   2,11,3,1,5,1,45,5,51,1,65,2,34,1,118,3,4,2,9,1,6,3,219,2,2,1,58,1,1,7,1,1,1,1,2,8,6,10,2,1,39,1,
   8,31,49,4,48,1,1,5,1,1,5,1,40,9,12,2,32,4,2,2,1,3,56,1,1,2,3,1,1,3,58,8,2,2,64,6,82,3,1,13,1,7,
   4,1,6,1,3,2,50,63,13,1,34,101,445,1,1,3,11,3,13,3,13,3,13,2,12,5,8,2,10,1,2,1,2,5,49,5,1,10,1,1,
   13,1,16,13,51,33,2955,2,113,3,125,1,15,1,96,32,47,1,469,1,36,4,3,5,5,1,93,6,93,3,28438,1,1250,6,
   270,1,98,4,1,10,1,1,28,4,80,2,14,34,78,1,23,3,103,3,3,2,8,1,3,1,4,1,25,2,5,1,151,2,26,18,13,1,
   38,8,25,11,46,3,48,1,2,4,2,2,17,1,21,2,66,6,2,2,2,2,12,1,8,1,35,1,11,1,51,1,1,3,2,2,5,2,1,1,27,
   1,14,2,5,2,1,1,100,5,9,3,121,1,2,1,4,1,20272,1,147,17,573,16,3,1,12,16,34,1,2,1,169,1,7,1,6,1,
   11,1,35,1,1,1,47,1,45,2,67,1,21,3,513,1,226,1,149,5,1029,6,1,42,1,9,582,3,1,2,5,4,40,3,4,1,165,
   2,573,4,387,2,153,11,49,4,123,1,54,15,41,1,2,2,10,3,49,4,2,2,2,1,4,1,10,1,50,3,36,5,1,8,62,1,12,
   2,52,9,10,4,2,1,95,3,2,1,1,2,6,1,160,1,3,8,21,2,57,2,3,1,37,7,3,5,195,8,2,3,1,1,23,1,84,6,1,1,4,
   2,1,2,238,4,6,2,1,2,27,2,85,8,2,1,1,2,106,1,1,1,2,6,1,1,101,3,2,4,1,5,259,9,1,2,256,2,1,1,4,1,
   144,4,2,2,4,1,32,10,40,6,2,4,8,1,9,6,2,3,46,13,1,2,406,7,1,6,1,1,82,22,2,7,1,2,1,2,122,6,3,1,1,
   2,1,7,1,1,72,2,3,1,1,1,347,2,5435,9,14007,5,59,7,9,4,1035,1,63,17,64,2,1,2,16395,4,1,7,1,2,3230,
   2,1,4,4700,46,2,23,544,3,9,16,2,7,30,4,148,3,1979,55,4,50,8,1,14,1,22,5,1,15,1360,7,1,17,2,7,1,
   2,1,5,261,14,368,1,61,4,1504,7,109,8,2735,5,789505,1,30,96,128,240]

/-- The character that one of the runs maps `n` to. -/
def shiftBy (runs : List (Nat × Nat × Nat)) (n : Nat) : Option Nat :=
  (runs.find? fun (first, _, count) => first ≤ n && n < first + count).map fun (first, image, _) =>
    image + (n - first)

/-- Whether `n` is one of the capitals of the alternating runs. -/
def isAlternating (n : Nat) : Bool :=
  alternatingCases.any fun (first, count) =>
    first ≤ n && n < first + 2 * count && (n - first) % 2 == 0

/-- The capital of a character, if it is one character. -/
def capital? (n : Nat) : Option Nat :=
  if isAlternating (n - 1) then some (n - 1) else (shiftBy upperRuns n).or (shiftBy distantCases n)

/-- The small letter of a character, if it is one character. -/
def small? (n : Nat) : Option Nat :=
  if isAlternating n then some (n + 1)
  else (shiftBy lowerRuns n).or <| shiftBy (distantCases.map fun (s, c, count) => (c, s, count)) n

/-- The capital form of one character. -/
def upperChar (c : Char) : List Char :=
  let n := c.toNat
  if n < 128 then [c.toUpper]
  else
    match upperSpecial.lookup n, shiftBy iotaRuns n with
    | some cs, _ => cs.map Char.ofNat
    | none, some m => [Char.ofNat m, 'Ι']
    | none, none => [((capital? n).map Char.ofNat).getD c]

/-- The small form of one character, outside the end of a word. -/
def lowerChar (c : Char) : List Char :=
  if c.toNat < 128 then [c.toLower]
  else
    match lowerSpecial.lookup c.toNat with
    | some cs => cs.map Char.ofNat
    | none => [((small? c.toNat).map Char.ofNat).getD c]

/-- The form of one character at the start of a title word. Georgian letters stay as they are. -/
def titleChar (c : Char) : List Char :=
  let n := c.toNat
  if inRanges ((4304,4351) :: titleLetterRanges) n then [c]
  else
    match titleSpecial.lookup n, shiftBy titleRuns n with
    | some cs, _ => cs.map Char.ofNat
    | none, some m => [Char.ofNat m]
    | none, none => upperChar c

def isCased (c : Char) : Bool :=
  if c.toNat < 128 then c.isAlpha else inRanges casedRanges c.toNat

/-- Characters that do not end a word. -/
def isCaseIgnorable (c : Char) : Bool :=
  inRanges caseIgnorableRanges c.toNat

/-- A capital sigma ends a word when a cased character stands before it and none after it, not
counting the characters that words pass over. -/
def isFinalSigma (before after : List Char) : Bool :=
  (match before.dropWhile isCaseIgnorable with
   | c :: _ => isCased c
   | [] => false) &&
  (match after.dropWhile isCaseIgnorable with
   | c :: _ => !isCased c
   | [] => true)

/-- The small form of `c` with `before` (nearest first) and `after` around it. -/
def lowerAt (before : List Char) (c : Char) (after : List Char) : List Char :=
  if c = 'Σ' then [if isFinalSigma before after then 'ς' else 'σ'] else lowerChar c

/-- Maps every character, giving each the characters before it (nearest first) and after it. -/
def mapInContext (f : List Char → Char → List Char → List Char) : List Char → List Char → List Char
  | _, [] => []
  | before, c :: after => f before c after ++ mapInContext f (c :: before) after

def upper (s : String) : String :=
  String.ofList (s.toList.flatMap upperChar)

def lower (s : String) : String :=
  String.ofList (mapInContext lowerAt [] s.toList)

/-- The first character in title form, the others small. -/
def capitalize (s : String) : String :=
  String.ofList (mapInContext
    (fun before c after => if before.isEmpty then titleChar c else lowerAt before c after)
    [] s.toList)

/-- Every first character of a word in title form, the others small. -/
def titleCase (s : String) : String :=
  String.ofList (mapInContext
    (fun before c after =>
      if before.head?.any isCased then lowerAt before c after else titleChar c)
    [] s.toList)

def swapCase (s : String) : String :=
  String.ofList (mapInContext
    (fun before c after =>
      if inRanges titleLetterRanges c.toNat then [c]
      else if c = 'Σ' || lowerChar c ≠ [c] then lowerAt before c after
      else upperChar c)
    [] s.toList)

end ScriptLang.Text
