import ScriptLang.Proofs.StoredValues

/-!
# What files contain

A text that was written to a file is what is read from it: its bytes decode to the text
(`decodeUtf8_toUTF8`), the place that a path stands for is found again after something was written
there (`Opens.put`), and documents are written without carriage returns, so that line ends stay as
they are. For values in files this gives the two cases of `writeJson`: the file holds the whole
document, which `readJsonFile` reads back, or a part of one, which it refuses.
-/

namespace ScriptLang

open ScriptLang.Action ScriptLang.Json ScriptLang.Number ScriptLang.Text

/-! ## Texts as bytes -/

theorem toList_loop (b : ByteArray) (i : Nat) (r : List UInt8) :
    ByteArray.toList.loop b i r = r.reverse ++ b.data.toList.drop i := by
  fun_induction ByteArray.toList.loop b i r with
  | case1 i r hlt ih =>
    have hsize : i < b.data.toList.length := by simpa using hlt
    rw [ih, List.drop_eq_getElem_cons hsize]
    simp [ByteArray.get!, hlt]
  | case2 i r hge =>
    rw [List.drop_eq_nil_of_le (by simpa using hge), List.append_nil]

theorem toList_toUTF8 (s : String) : s.toUTF8.toList = s.toList.flatMap String.utf8EncodeChar := by
  rw [String.toUTF8_eq_toByteArray, ← String.utf8Encode_toList, List.utf8Encode, ByteArray.toList,
    toList_loop, List.reverse_nil, List.nil_append, List.drop_zero, List.toList_data_toByteArray]

theorem toNat_byte {n : Nat} (h : n < 256) : (UInt8.ofNat n).toNat = n := by
  exact UInt8.toNat_ofNat_of_lt' h

theorem continuation_cons {low high acc taken count n : Nat} {bs : List UInt8} (hn : n < 256)
    (hlow : low ≤ n) (hhigh : n ≤ high) :
    continuation (count + 1) low high acc taken (UInt8.ofNat n :: bs) =
      continuation count 0x80 0xBF (acc * 64 + n % 64) (taken + 1) bs := by
  rw [continuation, toNat_byte hn, if_pos (by simp [hlow, hhigh])]

/-- A character, its bytes in their bounds. -/
theorem decodeFrom_lead {n count low high code : Nat} {bs rest : List UInt8} (hn : n < 256)
    (hlead : leadByte n = some (count, low, high))
    (hcode : continuation (count - 1) low high (leadBits count n) 1 bs = .ok (code, rest))
    (fuel pos : Nat) (acc : List Char) :
    decodeFrom (fuel + 1) pos (UInt8.ofNat n :: bs) acc =
      decodeFrom fuel (pos + count) rest (Char.ofNat code :: acc) := by
  rw [decodeFrom, toNat_byte hn, hlead]
  dsimp only
  rw [hcode]

theorem leadByte_three {n : Nat} (hlow : 0xE0 ≤ n) (hhigh : n < 0xF0) :
    leadByte n = some (3, if n = 0xE0 then 0xA0 else 0x80, if n = 0xED then 0x9F else 0xBF) := by
  have h : ¬ n < 0x80 ∧ ¬ n < 0xC2 ∧ ¬ n < 0xE0 := by omega
  rw [leadByte, if_neg h.1, if_neg h.2.1, if_neg h.2.2]
  by_cases hE0 : n = 0xE0
  · rw [hE0]
    rfl
  · by_cases hED : n = 0xED
    · rw [hED]
      rfl
    · rw [if_neg hE0, if_neg hED, if_pos hhigh, if_neg hE0, if_neg hED]

theorem leadByte_four {n : Nat} (hlow : 0xF0 ≤ n) (hhigh : n ≤ 0xF4) :
    leadByte n = some (4, if n = 0xF0 then 0x90 else 0x80, if n = 0xF4 then 0x8F else 0xBF) := by
  obtain rfl | rfl | rfl | rfl | rfl : n = 0xF0 ∨ n = 0xF1 ∨ n = 0xF2 ∨ n = 0xF3 ∨ n = 0xF4 := by
    omega
  all_goals rfl

section

variable {x y z u : Nat} (bs : List UInt8) (fuel pos : Nat) (acc : List Char)

theorem decodeFrom_one (hx : x < 0x80) :
    decodeFrom (fuel + 1) pos (UInt8.ofNat x :: bs) acc =
      decodeFrom fuel (pos + 1) bs (Char.ofNat x :: acc) := by
  have hlead : leadByte x = some (1, 0, 0) := if_pos hx
  exact decodeFrom_lead (by omega) hlead (by rw [leadBits, if_pos rfl, continuation]) fuel pos acc

theorem decodeFrom_two (hx : 0xC2 ≤ x ∧ x < 0xE0) (hy : 0x80 ≤ y ∧ y ≤ 0xBF) :
    decodeFrom (fuel + 1) pos (UInt8.ofNat x :: UInt8.ofNat y :: bs) acc =
      decodeFrom fuel (pos + 2) bs (Char.ofNat (x % 32 * 64 + y % 64) :: acc) := by
  have hlead : leadByte x = some (2, 0x80, 0xBF) := by
    rw [leadByte, if_neg (by omega), if_neg (by omega), if_pos hx.2]
  refine decodeFrom_lead (by omega) hlead ?_ fuel pos acc
  rw [continuation_cons (by omega) hy.1 hy.2, continuation, leadBits, if_neg (by decide),
    if_pos rfl]

theorem decodeFrom_three (hx : 0xE0 ≤ x ∧ x < 0xF0)
    (hy : (if x = 0xE0 then 0xA0 else 0x80) ≤ y ∧ y ≤ if x = 0xED then 0x9F else 0xBF)
    (hz : 0x80 ≤ z ∧ z ≤ 0xBF) :
    decodeFrom (fuel + 1) pos (UInt8.ofNat x :: UInt8.ofNat y :: UInt8.ofNat z :: bs) acc =
      decodeFrom fuel (pos + 3) bs (Char.ofNat ((x % 16 * 64 + y % 64) * 64 + z % 64) :: acc) := by
  have hy' : y < 256 := by
    have := hy.2
    split at this <;> omega
  refine decodeFrom_lead (by omega) (leadByte_three hx.1 hx.2) ?_ fuel pos acc
  rw [continuation_cons hy' hy.1 hy.2, continuation_cons (by omega) hz.1 hz.2,
    continuation, leadBits, if_neg (by decide), if_neg (by decide), if_pos rfl]

theorem decodeFrom_four (hx : 0xF0 ≤ x ∧ x ≤ 0xF4)
    (hy : (if x = 0xF0 then 0x90 else 0x80) ≤ y ∧ y ≤ if x = 0xF4 then 0x8F else 0xBF)
    (hz : 0x80 ≤ z ∧ z ≤ 0xBF) (hu : 0x80 ≤ u ∧ u ≤ 0xBF) :
    decodeFrom (fuel + 1) pos
        (UInt8.ofNat x :: UInt8.ofNat y :: UInt8.ofNat z :: UInt8.ofNat u :: bs) acc =
      decodeFrom fuel (pos + 4) bs
        (Char.ofNat (((x % 8 * 64 + y % 64) * 64 + z % 64) * 64 + u % 64) :: acc) := by
  have hy' : y < 256 := by
    have := hy.2
    split at this <;> omega
  refine decodeFrom_lead (by omega) (leadByte_four hx.1 hx.2) ?_ fuel pos acc
  rw [continuation_cons hy' hy.1 hy.2, continuation_cons (by omega) hz.1 hz.2,
    continuation_cons (by omega) hu.1 hu.2, continuation, leadBits, if_neg (by decide),
    if_neg (by decide), if_neg (by decide)]

end

theorem decodeFrom_char (c : Char) (bs : List UInt8) (fuel pos : Nat) (acc : List Char) :
    ∃ pos', decodeFrom (fuel + 1) pos (String.utf8EncodeChar c ++ bs) acc =
      decodeFrom fuel pos' bs (c :: acc) := by
  obtain ⟨v, hv⟩ : ∃ v, v = c.val.toNat := ⟨_, rfl⟩
  have hc : Char.ofNat v = c := by
    rw [hv]
    exact Char.ofNat_toNat c
  have hvalid : v < 0xD800 ∨ 0xDFFF < v ∧ v < 0x110000 := hv ▸ c.valid
  rw [String.utf8EncodeChar, ← hv]
  split
  · next h1 =>
    refine ⟨pos + 1, (decodeFrom_one bs fuel pos acc (by omega)).trans ?_⟩
    rw [hc]
  · next h1 =>
    split
    · next h2 =>
      have hcode : (v / 64 % 32 + 192) % 32 * 64 + (v % 64 + 128) % 64 = v := by omega
      refine ⟨pos + 2, (decodeFrom_two bs fuel pos acc (by omega) (by omega)).trans ?_⟩
      rw [hcode, hc]
    · next h2 =>
      split
      · next h3 =>
        have hcode : ((v / 4096 % 16 + 224) % 16 * 64 + (v / 64 % 64 + 128) % 64) * 64 +
            (v % 64 + 128) % 64 = v := by omega
        refine ⟨pos + 3, (decodeFrom_three bs fuel pos acc (by omega) ?_ (by omega)).trans ?_⟩
        · constructor <;> split <;> omega
        · rw [hcode, hc]
      · next h3 =>
        have hcode : (((v / 262144 % 8 + 240) % 8 * 64 + (v / 4096 % 64 + 128) % 64) * 64 +
            (v / 64 % 64 + 128) % 64) * 64 + (v % 64 + 128) % 64 = v := by omega
        refine ⟨pos + 4,
          (decodeFrom_four bs fuel pos acc (by omega) ?_ (by omega) (by omega)).trans ?_⟩
        · constructor <;> split <;> omega
        · rw [hcode, hc]

theorem utf8EncodeChar_ne_nil (c : Char) : String.utf8EncodeChar c ≠ [] := by
  rw [String.utf8EncodeChar]
  split
  · simp
  · split
    · simp
    · split <;> simp

theorem decodeFrom_chars (cs : List Char) {fuel : Nat} (hfuel : cs.length ≤ fuel) (pos : Nat)
    (acc : List Char) :
    decodeFrom fuel pos (cs.flatMap String.utf8EncodeChar) acc = .ok (acc.reverse ++ cs) := by
  induction cs generalizing fuel pos acc with
  | nil => cases fuel <;> simp [decodeFrom]
  | cons c cs ih =>
    obtain ⟨fuel, rfl⟩ : ∃ k, fuel = k + 1 := ⟨fuel - 1, by simp at hfuel; omega⟩
    obtain ⟨pos', hchar⟩ := decodeFrom_char c (cs.flatMap String.utf8EncodeChar) fuel pos acc
    rw [List.flatMap_cons, hchar, ih (by simpa using hfuel)]
    simp

theorem decodeUtf8_toUTF8 (s : String) : decodeUtf8 s.toUTF8.toList = .ok s := by
  have hlength : s.toList.length ≤ (s.toList.flatMap String.utf8EncodeChar).length := by
    rw [List.length_flatMap]
    refine (List.length_le_sum_of_one_le _ ?_).trans_eq' (by simp)
    intro n hn
    obtain ⟨c, -, rfl⟩ := List.mem_map.1 hn
    exact List.length_pos_iff.2 (utf8EncodeChar_ne_nil c)
  rw [decodeUtf8, toList_toUTF8, decodeFrom_chars _ hlength]
  show Except.ok (String.ofList s.toList) = _
  rw [String.ofList_toList]

theorem unifyLineEnds_eq_self {cs : List Char} (h : '\r' ∉ cs) : unifyLineEnds cs = cs := by
  fun_induction unifyLineEnds cs with
  | case1 => rfl
  | case2 rest ih => simp at h
  | case3 c rest hne ih =>
    rw [List.mem_cons, not_or] at h
    rw [if_neg (Ne.symm h.1), ih h.2]

/-! ## Places of files -/

namespace FileSystem

/-- A path text stands for a place where a file can be made or replaced. -/
structure Opens (fs : FileSystem) (cwd : Path) (path : String) (p : Path) : Prop where
  resolves : fs.resolve cwd path = .ok p
  free : fs.node? p ≠ some .directory
  parent : fs.node? p = none → path.endsWith "/" = false ∧ fs.node? p.dropLast = some .directory

/-- Writing succeeds exactly at the places where it can, and puts the file there. -/
theorem write_eq_ok_iff {fs fs' : FileSystem} {cwd : Path} {path : String} {content : ByteArray}
    {time : Float} : fs.write cwd path content time = .ok fs' ↔
      ∃ p, fs.Opens cwd path p ∧ fs' = fs.put p (.file content time) := by
  rw [write]
  constructor
  · intro h
    split at h
    · cases h
    · next p hp =>
      split at h
      · cases h
      · next hnode =>
        cases h
        exact ⟨p, ⟨hp, by simp [hnode], by simp [hnode]⟩, rfl⟩
      · next hnode =>
        split at h
        · cases h
        · next hslash =>
          split at h
          · next hparent =>
            cases h
            exact ⟨p, ⟨hp, by simp [hnode], fun _ => ⟨by simpa using hslash, hparent⟩⟩, rfl⟩
          · cases h
          · cases h
  · rintro ⟨p, hopen, rfl⟩
    rw [hopen.resolves]
    dsimp only
    cases hnode : fs.node? p with
    | none =>
      obtain ⟨hslash, hparent⟩ := hopen.parent hnode
      simp [hslash, hparent]
    | some n =>
      cases n with
      | file content time => rfl
      | directory => exact absurd hnode hopen.free

theorem Opens.ne_nil {fs : FileSystem} {cwd : Path} {path : String} {p : Path}
    (h : fs.Opens cwd path p) : p ≠ [] := by
  rintro rfl
  exact h.free rfl

theorem lookup_replace (nodes : List (Path × FileNode)) (p : Path) (n : FileNode) (q : Path) :
    (nodes.map fun e => if e.1 == p then (p, n) else e).lookup q =
      if q = p then (if nodes.any (·.1 == p) then some n else none) else nodes.lookup q := by
  induction nodes with
  | nil => simp
  | cons e nodes ih =>
    obtain ⟨r, m⟩ := e
    rw [List.map_cons]
    by_cases hr : r = p
    · rw [if_pos (by simp [hr]), List.lookup_cons, List.lookup_cons, ih, hr]
      by_cases hq : q = p
      · simp [hq]
      · simp [hq, beq_false_of_ne hq]
    · have hother : ((r, m).1 == p) = false := by simpa using hr
      rw [if_neg (by simp [hr]), List.lookup_cons, List.lookup_cons, ih, List.any_cons, hother,
        Bool.false_or]
      by_cases hq : q = r
      · simp [hq, hr]
      · have hqr : (q == r) = false := by simpa using hq
        rw [hqr]

theorem node?_put (fs : FileSystem) {p : Path} (hp : p ≠ []) (n : FileNode) (q : Path) :
    (fs.put p n).node? q = if q = p then some n else fs.node? q := by
  by_cases hq : q = []
  · rw [hq, if_neg (Ne.symm hp)]
    rfl
  · have hroot : ¬ q.isEmpty = true := by simpa using hq
    rw [node?, if_neg hroot, node?, if_neg hroot, put]
    split
    · next hany => rw [lookup_replace, if_pos hany]
    · next hany =>
      have hnone : fs.nodes.lookup p = none := by
        rw [List.lookup_eq_none_iff]
        intro e he
        have hne : ¬ (e.1 == p) = true := List.any_eq_false.1 (Bool.eq_false_iff.2 hany) e he
        rw [beq_iff_eq] at hne
        simpa using Ne.symm hne
      rw [List.lookup_append]
      by_cases hqp : q = p
      · rw [hqp, hnone]
        simp
      · have hother : (q == p) = false := by simpa using hqp
        rw [if_neg hqp, List.lookup_cons, hother, List.lookup_nil, Option.or_none]

theorem put_put (fs : FileSystem) (p : Path) (n m : FileNode) :
    (fs.put p n).put p m = fs.put p m := by
  by_cases hany : fs.nodes.any (·.1 == p) = true
  · have hagain : (fs.nodes.map fun e => if e.1 == p then (p, n) else e).any (·.1 == p) = true := by
      obtain ⟨e, he, hep⟩ := List.any_eq_true.1 hany
      exact List.any_eq_true.2 ⟨(p, n), List.mem_map.2 ⟨e, he, by rw [if_pos hep]⟩, by simp⟩
    rw [put, put, if_pos hany, if_pos hagain, put, if_pos hany]
    simp only [List.map_map]
    congr 1
    refine List.map_congr_left fun e _ => ?_
    rw [Function.comp_apply]
    by_cases hep : (e.1 == p) = true
    · rw [if_pos hep, if_pos hep, if_pos (beq_self_eq_true p)]
    · rw [if_neg hep, if_neg hep]
  · have hagain : (fs.nodes ++ [(p, n)]).any (·.1 == p) = true := by simp
    rw [put, put, if_neg hany, if_pos hagain, put, if_neg hany]
    simp only [List.map_append, List.map_cons, List.map_nil, beq_self_eq_true, if_true]
    congr 2
    refine (List.map_congr_left fun e he => ?_).trans (List.map_id _)
    have hep := List.any_eq_false.1 (Bool.eq_false_iff.2 hany) e he
    rw [if_neg hep]
    rfl

section

variable {fs : FileSystem} {cwd : Path} {path : String} {p : Path} {c : ByteArray} {t : Float}

theorem walk_put (hp : p ≠ []) (hfree : fs.node? p ≠ some .directory) {q r : Path}
    {names : List String} (h : fs.walk q names = .ok r) :
    (fs.put p (.file c t)).walk q names = .ok r := by
  induction names generalizing q with
  | nil => exact h
  | cons name names ih =>
    rw [walk] at h ⊢
    cases hnode : fs.node? q with
    | none =>
      rw [hnode] at h
      cases h
    | some n =>
      cases n with
      | file content time =>
        rw [hnode] at h
        cases h
      | directory =>
        -- every place on the way is a directory, so it is not where the file is
        have hqp : q ≠ p := by
          rintro rfl
          exact hfree hnode
        rw [hnode] at h
        rw [node?_put fs hp, if_neg hqp, hnode]
        dsimp only at h ⊢
        split at h
        · next hdot => rw [if_pos hdot, ih h]
        · next hdot =>
          rw [if_neg hdot]
          split at h
          · next hup => rw [if_pos hup, ih h]
          · next hup => rw [if_neg hup, ih h]

theorem Opens.endsWith (h : fs.Opens cwd path p) : path.endsWith "/" = false := by
  cases hnode : fs.node? p with
  | none => exact (h.parent hnode).1
  | some n =>
    cases n with
    | directory => exact absurd hnode h.free
    | file content time =>
      have hresolve := h.resolves
      rw [resolve] at hresolve
      split at hresolve
      · cases hresolve
      · dsimp only at hresolve
        split at hresolve
        · cases hresolve
        · next q hq =>
          split at hresolve
          · next hslash =>
            split at hresolve
            · cases hresolve
            · next hfile =>
              cases hresolve
              exact absurd hnode (hfile content time)
          · next hslash => simpa using hslash

theorem Opens.resolve_put (h : fs.Opens cwd path p) :
    (fs.put p (.file c t)).resolve cwd path = .ok p := by
  have hslash : ¬ path.endsWith "/" = true := by simp [h.endsWith]
  have hresolve := h.resolves
  rw [resolve] at hresolve ⊢
  split at hresolve
  · cases hresolve
  · next hempty =>
    rw [if_neg hempty]
    dsimp only at hresolve ⊢
    split at hresolve
    · cases hresolve
    · next q hq =>
      rw [walk_put h.ne_nil h.free hq]
      dsimp only
      rw [if_neg hslash]
      exact hresolve

theorem Opens.put (h : fs.Opens cwd path p) : (fs.put p (.file c t)).Opens cwd path p where
  resolves := h.resolve_put
  free := by
    rw [node?_put fs h.ne_nil, if_pos rfl]
    nofun
  parent hnone := by
    rw [node?_put fs h.ne_nil, if_pos rfl] at hnone
    cases hnone

theorem Opens.read_put (h : fs.Opens cwd path p) :
    (fs.put p (.file c t)).read cwd path = .ok c := by
  rw [read, find, h.resolve_put]
  dsimp only
  rw [node?_put fs h.ne_nil, if_pos rfl]

theorem present_of_read (h : fs.read cwd path = .ok c) : fs.present cwd path = true := by
  rw [read] at h
  rw [present]
  cases hfind : fs.find cwd path with
  | error e =>
    rw [hfind] at h
    cases h
  | ok r => rfl

end

end FileSystem

/-! ## Texts without carriage returns -/

namespace Json

theorem not_return_hex (width n : Nat) : '\r' ∉ hex width n := by
  have hdigit : ∀ d < 16, '\r' ≠ Nat.digitChar d := by decide
  have hdigits : '\r' ∉ Nat.toDigits 16 n := by
    induction n using Nat.strong_induction_on with
    | _ n ih =>
      by_cases hn : n < 16
      · rw [Nat.toDigits_of_lt_base hn, List.mem_singleton]
        exact hdigit n hn
      · have hlast := hdigit (n % 16) (Nat.mod_lt n (by decide))
        rw [Nat.toDigits_of_base_le (by decide) (Nat.le_of_not_lt hn), List.mem_append,
          List.mem_singleton]
        exact not_or.2 ⟨ih (n / 16) (by omega), hlast⟩
  rw [hex, List.mem_append]
  refine not_or.2 ⟨fun hzero => ?_, hdigits⟩
  exact absurd (List.eq_of_mem_replicate hzero) (by decide)

theorem not_return_unit (n : Nat) : '\r' ∉ '\\' :: 'u' :: hex 4 n := by
  simpa using not_return_hex 4 n

theorem not_return_units (m n : Nat) : '\r' ∉ '\\' :: 'u' :: hex 4 m ++ '\\' :: 'u' :: hex 4 n := by
  rw [List.mem_append]
  exact not_or.2 ⟨not_return_unit m, not_return_unit n⟩

theorem not_return_escapeChar (c : Char) : '\r' ∉ escapeChar c := by
  unfold escapeChar
  split
  · next h =>
    simp only [Bool.or_eq_true, decide_eq_true_eq] at h
    rcases h with rfl | rfl <;> decide
  · split
    · decide
    · split
      · decide
      · next hreturn =>
        have hc : '\r' ≠ c := Ne.symm hreturn
        split
        · decide
        · split
          · decide
          · split
            · decide
            · split
              · simpa using hc
              · split
                · exact not_return_unit _
                · exact not_return_units _ _

theorem not_return_quote (s : String) : '\r' ∉ (quote s).toList := by
  rw [toList_quote]
  simp [not_return_escapeChar]

theorem not_return_of_isDigit {c : Char} (h : c.isDigit = true) : '\r' ≠ c := by
  rintro rfl
  revert h
  decide

theorem not_return_digits {cs : List Char} (h : ∀ c ∈ cs, c.isDigit = true) : '\r' ∉ cs :=
  fun hmem => not_return_of_isDigit (h _ hmem) rfl

theorem not_return_numeral (n : Numeral) : '\r' ∉ n.chars := by
  have hfraction : '\r' ∉ n.fraction := by
    rw [Numeral.fraction]
    split
    · simp
    · simpa using not_return_digits n.places_digits
  have hpower : '\r' ∉ n.power := by
    rw [Numeral.power]
    split
    · simp
    · next neg ds hexp =>
      have hds := not_return_digits (n.exponent_digits (neg, ds) (by simp [hexp])).2
      cases neg <;> simpa using hds
  rw [Numeral.chars, List.mem_append, List.mem_append]
  exact not_or.2 ⟨not_return_digits n.whole_digits, not_or.2 ⟨hfraction, hpower⟩⟩

theorem not_return_words {w : List Char × Json} (h : w ∈ words) : '\r' ∉ w.1 := by
  simp only [words_eq, List.mem_cons, List.not_mem_nil, or_false] at h
  rcases h with rfl | rfl | rfl | rfl | rfl | rfl <;> decide

theorem not_return_leaf (f : Layout) (level : Nat) {j : Json} (h : j.depth ≤ 1) :
    '\r' ∉ (renderAt f level j).toList := by
  have hsign {cs : List Char} (neg : Bool) (hcs : '\r' ∉ cs) :
      '\r' ∉ (if neg then ['-'] else []) ++ cs := by
    cases neg <;> simpa using hcs
  cases j with
  | null =>
    obtain ⟨w, hw, htext, -⟩ := render_null f level
    rw [htext]
    exact not_return_words hw
  | bool b =>
    obtain ⟨w, hw, htext, -⟩ := render_bool f level b
    rw [htext]
    exact not_return_words hw
  | whole n =>
    rw [renderAt, wholeText, String.toList_ofList]
    have hdigits := not_return_digits fun c hc => isDigit_of_mem_digits (n := n.natAbs) hc
    split <;> simpa using hdigits
  | real x =>
    rw [renderAt]
    rcases written_cases x with ⟨w, hw, htext, -⟩ | ⟨neg, n, htext, -⟩
    · rw [htext]
      exact not_return_words hw
    · rw [htext]
      exact hsign neg (not_return_numeral n)
  | text t =>
    rw [renderAt]
    exact not_return_quote t
  | list items =>
    cases items with
    | nil => simp [renderAt, renderItems, Layout.enclose]
    | cons v vs =>
      have hlt := depth_lt_list (List.mem_cons_self (a := v) (l := vs))
      have hpos := depth_pos v
      omega
  | fields fs =>
    cases fs with
    | nil => simp [renderAt, renderFields, Layout.enclose]
    | cons e fs =>
      have hlt := depth_lt_fields (List.mem_cons_self (a := e) (l := fs))
      have hpos := depth_pos e.2
      omega

theorem not_return_marks (f : Layout) (level : Nat) : '\r' ∉ (f.marks level).1.toList ∧
    '\r' ∉ (f.marks level).2.1.toList ∧ '\r' ∉ (f.marks level).2.2.toList := by
  cases f with
  | line => simp [Layout.marks]
  | indented w => simp [Layout.marks]

end Json

namespace Draft

theorem not_return_andThen {a b : Draft} (ha : '\r' ∉ a.text.toList) (hb : '\r' ∉ b.text.toList) :
    '\r' ∉ (a.andThen b).text.toList := by
  rw [andThen]
  split
  · rw [String.toList_append, List.mem_append]
    exact not_or.2 ⟨ha, hb⟩
  · exact ha

/-- Whether a part puts down a carriage return only after one. -/
def Plain (part : String → Draft) : Prop :=
  ∀ before : String, '\r' ∉ before.toList → '\r' ∉ (part before).text.toList

theorem not_return_sequence {parts : List (String → Draft)} (h : ∀ part ∈ parts, Plain part)
    {before between : String} (hbefore : '\r' ∉ before.toList) (hbetween : '\r' ∉ between.toList) :
    '\r' ∉ (sequence before between parts).text.toList := by
  induction parts generalizing before with
  | nil => simp [sequence, of]
  | cons part parts ih =>
    rw [List.forall_mem_cons] at h
    exact not_return_andThen (h.1 before hbefore) (ih h.2 hbetween)

section

variable {f : Json.Layout} {level : Nat} {part : Value → Draft}
  (hpart : ∀ v, '\r' ∉ (part v).text.toList)

include hpart

theorem plain_item (v : Value) : Plain (item part v) := by
  intro before hbefore
  rw [item]
  split
  · simp [stopped]
  · exact not_return_andThen hbefore (hpart v)

theorem plain_field (e : Value × Value) : Plain (field part e) := by
  intro before hbefore
  rw [field]
  split
  · next name hname =>
    refine not_return_andThen ?_ (hpart e.2)
    simp [of, hbefore, not_return_quote]
  · simp [stopped]

theorem not_return_list (xs : List Value) : '\r' ∉ (list f level part xs).text.toList := by
  obtain ⟨hfirst, hbetween, hlast⟩ := not_return_marks f level
  rw [list]
  dsimp only
  split
  · simp [of]
  · refine not_return_andThen (not_return_sequence ?_ (by simpa using hfirst) hbetween) ?_
    · rintro _ hitem
      obtain ⟨v, -, rfl⟩ := List.mem_map.1 hitem
      exact plain_item hpart v
    · simpa [of] using hlast

theorem not_return_object (es : Entries) : '\r' ∉ (object f level part es).text.toList := by
  obtain ⟨hfirst, hbetween, hlast⟩ := not_return_marks f level
  rw [object]
  dsimp only
  split
  · simp [of]
  · have hfields : '\r' ∉ (sequence "" (f.marks level).2.1 (es.map (field part))).text.toList := by
      refine not_return_sequence ?_ (by simp) hbetween
      rintro _ hfield
      obtain ⟨e, -, rfl⟩ := List.mem_map.1 hfield
      exact plain_field hpart e
    refine not_return_andThen (not_return_andThen (by simpa [of] using hfirst) hfields) ?_
    simpa [of] using hlast

end

end Draft

theorem Heap.not_return_writtenPart (s : Heap) (f : Json.Layout) (d level : Nat) (seen : List Loc)
    (v : Value) : '\r' ∉ (s.writtenPart f d level seen v).text.toList := by
  induction d generalizing level seen v with
  | zero => simp [writtenPart, Draft.stopped]
  | succ d ih =>
    by_cases hparts : v.HasParts
    · rcases hparts with ⟨xs, rfl⟩ | ⟨l, rfl⟩ | ⟨l, rfl⟩
      · rw [writtenPart]
        exact Draft.not_return_list (ih (level + 1) seen) xs
      · rw [writtenPart]
        split
        · simp [Draft.stopped]
        · exact Draft.not_return_list (ih (level + 1) (l :: seen)) _
      · rw [writtenPart]
        split
        · simp [Draft.stopped]
        · exact Draft.not_return_object (ih (level + 1) (l :: seen)) _
    · rw [(s.leaf_eq f d level seen hparts).2]
      cases hdoc : s.documentOf 1 [] v with
      | error e => simp [Draft.stopped]
      | ok doc => exact not_return_leaf f 0 (s.documentOf_fits hdoc).depth

theorem Heap.not_return_documentOf (s : Heap) (f : Json.Layout) {d : Nat} {v : Value} {j : Json}
    (h : s.documentOf d [] v = .ok j) : '\r' ∉ (render f j).toList := by
  have hdraft := ((s.writtenPart_follows f d 0 [] v).whole j h).1
  have hclean := s.not_return_writtenPart f d 0 [] v
  rwa [hdraft] at hclean

/-! ## Texts in files -/

/-- A value stands for a path text, in every setting. -/
def Value.Names (path : Value) (name : String) : Prop :=
  ∀ s : Setting, openPath path s = .ok name s

theorem openPath_cases (path : Value) :
    (∃ name, path.Names name) ∨ ∃ f, ∀ s : Setting, openPath path s = .error (.fault f) s := by
  cases path with
  | text name =>
    by_cases hzero : name.toList.contains '\x00' = true
    · exact .inr ⟨_, fun s => by rw [openPath, if_pos hzero]; rfl⟩
    · exact .inl ⟨name, fun s => by rw [openPath, if_neg hzero]; rfl⟩
  | int n =>
    right
    by_cases hneg : n < 0
    · exact ⟨_, fun s => by rw [openPath, if_pos hneg]; rfl⟩
    · by_cases hsmall : n < 0x80000000
      · exact ⟨_, fun s => by rw [openPath, if_neg hneg, if_pos hsmall]; rfl⟩
      · exact ⟨_, fun s => by rw [openPath, if_neg hneg, if_neg hsmall]; rfl⟩
  | bytes b =>
    have hopen : openPath (.bytes b) = pathText (.bytes b) := rfl
    cases hdecode : decodeUtf8 b with
    | ok name => exact .inl ⟨name, fun s => by rw [hopen, pathText, hdecode]; rfl⟩
    | error e => exact .inr ⟨_, fun s => by rw [hopen, pathText, hdecode]; rfl⟩
  | _ => exact .inr ⟨_, fun _ => rfl⟩

/-- A setting with a text in the file at a place. -/
def Setting.withFile (s : Setting) (p : Path) (text : String) : Setting :=
  { s with files := s.files.put p (.file text.toUTF8 s.clock) }

/-- A path stands for a place where a file can be written. -/
def Setting.Opens (s : Setting) (path : Value) (p : Path) : Prop :=
  ∃ name, path.Names name ∧ s.files.Opens s.cwd name p

/-- The file at a path has a text. -/
def Setting.Shows (s : Setting) (path : Value) (text : String) : Prop :=
  ∃ name, path.Names name ∧ s.files.read s.cwd name = .ok text.toUTF8

variable {s : Setting} {p : Path}

variable {path : Value} {name : String}

theorem Setting.Opens.unique {q : Path} (hp : s.Opens path p) (hq : s.Opens path q) : p = q := by
  obtain ⟨name, hname, hopen⟩ := hp
  obtain ⟨name', hname', hopen'⟩ := hq
  cases (hname s).symm.trans (hname' s)
  exact Except.ok.inj (hopen.resolves.symm.trans hopen'.resolves)

theorem Setting.Opens.shows (h : s.Opens path p) (text : String) :
    (s.withFile p text).Shows path text := by
  obtain ⟨name, hname, hopen⟩ := h
  exact ⟨name, hname, hopen.read_put⟩

theorem writeText_ok (h : s.files.Opens s.cwd name p) (text : String) :
    writeText name text s = .ok () (s.withFile p text) := by
  have hwrite : s.files.write s.cwd name text.toUTF8 s.clock =
      .ok (s.files.put p (.file text.toUTF8 s.clock)) := FileSystem.write_eq_ok_iff.2 ⟨p, h, rfl⟩
  show (ofFile name (s.files.write s.cwd name text.toUTF8 s.clock) >>= fun files =>
    set { s with files }) s = _
  rw [hwrite]
  rfl

theorem writeText_error (h : ∀ p, ¬ s.files.Opens s.cwd name p) (text : String) :
    ∃ f, writeText name text s = .error (.fault f) s := by
  show ∃ f, (ofFile name (s.files.write s.cwd name text.toUTF8 s.clock) >>= fun files =>
    set { s with files }) s = .error (.fault f) s
  cases hwrite : s.files.write s.cwd name text.toUTF8 s.clock with
  | ok fs =>
    obtain ⟨p, hopen, -⟩ := FileSystem.write_eq_ok_iff.1 hwrite
    exact absurd hopen (h p)
  | error e => exact ⟨e.fault name, rfl⟩

/-- What is written after a file was emptied is all that it has. -/
theorem writeThrough_eq (hopen : s.Opens path p) {content : Routine (String × Option Fault)}
    {text : String} {failure : Option Fault}
    (hcontent : content (s.withFile p "") = .ok (text, failure) (s.withFile p "")) :
    
    writeThrough path content s = match failure with
      | none => .ok () (s.withFile p text)
      | some f => .error (.fault f) (s.withFile p text) := by
  obtain ⟨name, hname, hopen⟩ := hopen
  have htwice : (s.withFile p "").withFile p text = s.withFile p text := by
    simp only [Setting.withFile, FileSystem.put_put]
  have hagain : writeText name text (s.withFile p "") = .ok () (s.withFile p text) := by
    rw [← htwice]
    exact writeText_ok (s := s.withFile p "") hopen.put text
  refine (bind_ok (hname s)).trans ((bind_ok (writeText_ok hopen "")).trans ?_)
  refine (bind_ok hcontent).trans ((bind_ok hagain).trans ?_)
  cases failure <;> rfl

theorem writeThrough_error (hopen : ∀ p, ¬ s.Opens path p)
    (content : Routine (String × Option Fault)) :
    ∃ f, writeThrough path content s = .error (.fault f) s := by
  rcases openPath_cases path with ⟨name, hname⟩ | ⟨f, hf⟩
  · have hclosed : ∀ p, ¬ s.files.Opens s.cwd name p := fun p hp => hopen p ⟨name, hname, hp⟩
    obtain ⟨f, hf⟩ := writeText_error hclosed ""
    exact ⟨f, (bind_ok (hname s)).trans (bind_error hf)⟩
  · exact ⟨f, bind_error (hf s)⟩

theorem readText_ok {text : String} (h : s.files.read s.cwd name = .ok text.toUTF8)
    (hclean : '\r' ∉ text.toList) : Action.readText name s = .ok text s := by
  have hbytes : readBytes name s = .ok text.toUTF8 s := by
    show (ofFile name (s.files.read s.cwd name)) s = _
    rw [h]
    rfl
  have hdecode : decodeText text.toUTF8 s = .ok text s := by
    rw [decodeText, decodeUtf8_toUTF8]
    rfl
  refine (bind_ok hbytes).trans ((bind_ok hdecode).trans ?_)
  rw [unifyLineEnds_eq_self hclean, String.ofList_toList]
  rfl

/-! ## Values in files -/

section

variable {s : Setting} {path v : Value} {p : Path}

theorem jsonPart_withFile (f : Json.Layout) (text : String) :
    jsonPart f v (s.withFile p text) = match s.heap.documentOf valueDepth [] v with
      | .ok doc => .ok (render f doc, none) (s.withFile p text)
      | .error e => .ok ((s.heap.writtenPart f valueDepth 0 [] v).text, some e)
        (s.withFile p text) := by
  show (match s.heap.documentOf valueDepth [] v with
    | .ok doc => pure (render f doc, none)
    | .error e => pure ((s.heap.writtenPart f valueDepth 0 [] v).text, some e) :
      Routine (String × Option Fault)) (s.withFile p text) = _
  cases s.heap.documentOf valueDepth [] v <;> rfl

theorem writeJson_ok (hopen : s.Opens path p) {j : Json}
    (hdoc : s.heap.documentOf valueDepth [] v = .ok j) :
    writeJson path v s = .ok () (s.withFile p (render (.indented 2) j)) := by
  have hpart : jsonPart (.indented 2) v (s.withFile p "") =
      .ok (render (.indented 2) j, none) (s.withFile p "") := by
    rw [jsonPart_withFile, hdoc]
  exact writeThrough_eq hopen hpart

/-- Of a value without a document, what comes before the first part without one is written. -/
theorem writeJson_error (hopen : s.Opens path p) {e : Fault}
    (hdoc : s.heap.documentOf valueDepth [] v = .error e) :
    writeJson path v s = .error (.fault e)
      (s.withFile p (s.heap.writtenPart (.indented 2) valueDepth 0 [] v).text) := by
  have hpart : jsonPart (.indented 2) v (s.withFile p "") =
      .ok ((s.heap.writtenPart (.indented 2) valueDepth 0 [] v).text, some e)
      (s.withFile p "") := by
    rw [jsonPart_withFile, hdoc]
  exact writeThrough_eq hopen hpart

theorem readJsonFile_ok {text : String} {j : Json} (hshows : s.Shows path text)
    (hclean : '\r' ∉ text.toList) (hread : Json.read text = .ok j) :
    ∃ v s', readJsonFile path s = .ok v s' ∧ s.Grows s' ∧ s'.heap.Holds j.merged v := by
  obtain ⟨name, hname, hfile⟩ := hshows
  obtain ⟨v, s', hv, hgrows, hheld⟩ := ofDocument_holds j s
  refine ⟨v, s', ?_, hgrows, hheld⟩
  refine (bind_ok (hname s)).trans ((bind_ok (readText_ok hfile hclean)).trans ?_)
  rw [readJson, hread]
  exact hv

/-- A text without a document in it is refused, and nothing changes. -/
theorem readJsonFile_error {text : String} {e : JsonError} (hshows : s.Shows path text)
    (hclean : '\r' ∉ text.toList) (hread : Json.read text = .error e) :
    ∃ f, readJsonFile path s = .error (.fault f) s := by
  obtain ⟨name, hname, hfile⟩ := hshows
  have hrun : readJsonFile path s = readJson text s :=
    (bind_ok (hname s)).trans (bind_ok (readText_ok hfile hclean))
  rw [hrun, readJson, hread]
  cases e <;> exact ⟨_, rfl⟩

end

end ScriptLang
