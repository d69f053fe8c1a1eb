import TernBackend.Proofs.Wire.Utf8
import TernBackend.Wire.Base64

/-!
# Base64 round trip

The written form of bytes is read back as these bytes (`decode_encode`). The reading goes by groups of
four symbols and treats the last group on its own, so the proof goes by three bytes at a time, with one
case for each length that the last group of bytes can have.

Conversely, whatever is read is the written form of what it is read as (`encode_of_decode`): the checks on
the last group leave it no second form.
-/

namespace TernBackend.Base64

/-! ## Symbols -/

theorem number?_symbol : ∀ n < 64, number? (symbol n) = some n := by decide

theorem symbol_ne_fill : ∀ n < 64, symbol n ≠ fill := by decide

theorem toNat_symbol_lt : ∀ n < 64, (symbol n).toNat < 0x80 := by decide

theorem number_symbol {n : Nat} (h : n < 64) (offset : Nat) : number (symbol n) offset = .ok n := by
  rw [number, number?_symbol n h]

/-! ## The last group -/

theorem lastSymbols_symbol {n : Nat} (h : n < 64) (offset place : Nat) (bs : Bytes) :
    lastSymbols offset place (symbol n :: bs) =
      (lastSymbols offset (place + 1) bs).map fun (ns, fills) => (n :: ns, fills) := by
  rw [lastSymbols, if_neg (symbol_ne_fill n h), number?_symbol n h]

theorem decodeLast_one {w x : Nat} (hw : w < 64) (hx : x < 64) (hzero : x % 16 = 0) (offset : Nat) :
    decodeLast offset [symbol w, symbol x, fill, fill] = .ok [.ofNat (w * 4 + x / 16)] := by
  have hsymbols : lastSymbols offset 0 [symbol w, symbol x, fill, fill] = .ok ([w, x], 2) := by
    rw [lastSymbols_symbol hw, lastSymbols_symbol hx]
    rfl
  rw [decodeLast, hsymbols]
  simp [bind, Except.bind, lastBytes, hzero]

theorem decodeLast_two {w x y : Nat} (hw : w < 64) (hx : x < 64) (hy : y < 64) (hzero : y % 4 = 0)
    (offset : Nat) :
    decodeLast offset [symbol w, symbol x, symbol y, fill] =
      .ok [.ofNat (w * 4 + x / 16), .ofNat (x % 16 * 16 + y / 4)] := by
  have hsymbols : lastSymbols offset 0 [symbol w, symbol x, symbol y, fill] = .ok ([w, x, y], 1) := by
    rw [lastSymbols_symbol hw, lastSymbols_symbol hx, lastSymbols_symbol hy]
    rfl
  rw [decodeLast, hsymbols]
  simp [bind, Except.bind, lastBytes, hzero]

theorem decodeLast_three {w x y z : Nat} (hw : w < 64) (hx : x < 64) (hy : y < 64) (hz : z < 64)
    (offset : Nat) :
    decodeLast offset [symbol w, symbol x, symbol y, symbol z] =
      .ok [.ofNat (w * 4 + x / 16), .ofNat (x % 16 * 16 + y / 4), .ofNat (y % 4 * 64 + z)] := by
  have hsymbols : lastSymbols offset 0 [symbol w, symbol x, symbol y, symbol z] =
      .ok ([w, x, y, z], 0) := by
    rw [lastSymbols_symbol hw, lastSymbols_symbol hx, lastSymbols_symbol hy, lastSymbols_symbol hz]
    rfl
  rw [decodeLast, hsymbols]
  simp [bind, Except.bind, lastBytes]

/-! ## All groups -/

theorem encode_ne_nil {bs : Bytes} (h : bs ≠ []) : encode bs ≠ [] := by
  match bs with
  | [a] | [a, b] | a :: b :: c :: rest => rw [encode]; exact List.cons_ne_nil _ _

/-- A group of four symbols that others follow. -/
theorem decodeFrom_group {w x y z : Nat} (hw : w < 64) (hx : x < 64) (hy : y < 64) (hz : z < 64)
    {later : Bytes} (h : later ≠ []) (offset : Nat) :
    decodeFrom offset (symbol w :: symbol x :: symbol y :: symbol z :: later) =
      (decodeFrom (offset + 4) later).map fun bs =>
        .ofNat (w * 4 + x / 16) :: .ofNat (x % 16 * 16 + y / 4) :: .ofNat (y % 4 * 64 + z) :: bs := by
  obtain ⟨e, rest, rfl⟩ := List.exists_cons_of_ne_nil h
  rw [decodeFrom, number_symbol hw, number_symbol hx, number_symbol hy, number_symbol hz]
  rfl

theorem decodeFrom_encode : ∀ (bs : Bytes) (offset : Nat), decodeFrom offset (encode bs) = .ok bs
  | [], _ => rfl
  | [a], offset => by
    have ha := a.toNat_lt
    have h1 : UInt8.ofNat (a.toNat / 4 * 4 + a.toNat % 4 * 16 / 16) = a := Utf8.ofNat_eq (by omega)
    rw [encode, decodeFrom]
    · rw [decodeLast_one (by omega) (by omega) (by omega), h1]
    · simp
    · simp
  | [a, b], offset => by
    have ha := a.toNat_lt
    have hb := b.toNat_lt
    have h1 : UInt8.ofNat (a.toNat / 4 * 4 + (a.toNat % 4 * 16 + b.toNat / 16) / 16) = a :=
      Utf8.ofNat_eq (by omega)
    have h2 : UInt8.ofNat ((a.toNat % 4 * 16 + b.toNat / 16) % 16 * 16 + b.toNat % 16 * 4 / 4) = b :=
      Utf8.ofNat_eq (by omega)
    rw [encode, decodeFrom]
    · rw [decodeLast_two (by omega) (by omega) (by omega) (by omega), h1, h2]
    · simp
    · simp
  | a :: b :: c :: rest, offset => by
    have ha := a.toNat_lt
    have hb := b.toNat_lt
    have hc := c.toNat_lt
    have h1 : UInt8.ofNat (a.toNat / 4 * 4 + (a.toNat % 4 * 16 + b.toNat / 16) / 16) = a :=
      Utf8.ofNat_eq (by omega)
    have h2 : UInt8.ofNat ((a.toNat % 4 * 16 + b.toNat / 16) % 16 * 16 +
        (b.toNat % 16 * 4 + c.toNat / 64) / 4) = b := Utf8.ofNat_eq (by omega)
    have h3 : UInt8.ofNat ((b.toNat % 16 * 4 + c.toNat / 64) % 4 * 64 + c.toNat % 64) = c :=
      Utf8.ofNat_eq (by omega)
    rw [encode]
    -- the last group is read by itself, also when it is a full one
    by_cases hrest : rest = []
    · rw [hrest, encode, decodeFrom]
      · rw [decodeLast_three (by omega) (by omega) (by omega) (by omega), h1, h2, h3]
      · simp
      · simp
    · rw [decodeFrom_group (by omega) (by omega) (by omega) (by omega) (encode_ne_nil hrest),
        decodeFrom_encode rest, h1, h2, h3]
      rfl

theorem length_encode : ∀ bs : Bytes, (encode bs).length = 4 * ((bs.length + 2) / 3)
  | [] => rfl
  | [a] | [a, b] => by simp [encode]
  | a :: b :: c :: rest => by
    simp only [encode, List.length_cons, length_encode rest]
    omega

/-- The written form of bytes is read back as these bytes. -/
theorem decode_encode (bs : Bytes) : decode (encode bs) = .ok bs := by
  have hlength : ¬ (encode bs).length % 4 = 1 := by
    rw [length_encode]
    omega
  rw [decode]
  split
  next last _ => rw [if_neg fun h => hlength h.1, decodeFrom_encode]
  next hnil =>
    have hbs : bs = [] := by
      by_cases h : bs = []
      · exact h
      · exact absurd (List.getLast?_eq_none_iff.1 hnil) (encode_ne_nil h)
    rw [hbs]

/-! ## What is read was written -/

theorem number?_eq_some {b : UInt8} {n : Nat} (h : number? b = some n) : n < 64 ∧ symbol n = b := by
  have hcases : n < 64 ∧ (if n < 26 then n + 65 else if n < 52 then n + 71 else if n < 62 then n - 4
      else if n = 62 then 43 else 47) = b.toNat := by
    simp only [number?] at h
    grind
  exact ⟨hcases.1, Utf8.ofNat_eq hcases.2⟩

theorem number_eq_ok {b : UInt8} {offset n : Nat} (h : number b offset = .ok n) : n < 64 ∧ symbol n = b := by
  unfold number at h
  split at h
  next n' hn =>
    cases h
    exact number?_eq_some hn
  next => cases h

/-! ### Groups -/

/-- Four symbols stand for three bytes. -/
theorem encode_group {w x y z : Nat} (hw : w < 64) (hx : x < 64) (hy : y < 64) (hz : z < 64) (rest : Bytes) :
    encode (.ofNat (w * 4 + x / 16) :: .ofNat (x % 16 * 16 + y / 4) :: .ofNat (y % 4 * 64 + z) :: rest) =
      symbol w :: symbol x :: symbol y :: symbol z :: encode rest := by
  have h1 := Utf8.toNat_byte (show w * 4 + x / 16 < 256 by omega)
  have h2 := Utf8.toNat_byte (show x % 16 * 16 + y / 4 < 256 by omega)
  have h3 := Utf8.toNat_byte (show y % 4 * 64 + z < 256 by omega)
  simp only [encode, h1, h2, h3]
  congr <;> omega

theorem encode_two {w x y : Nat} (hw : w < 64) (hx : x < 64) (hy : y < 64) (hzero : y % 4 = 0) :
    encode [.ofNat (w * 4 + x / 16), .ofNat (x % 16 * 16 + y / 4)] = [symbol w, symbol x, symbol y, fill] := by
  have h1 := Utf8.toNat_byte (show w * 4 + x / 16 < 256 by omega)
  have h2 := Utf8.toNat_byte (show x % 16 * 16 + y / 4 < 256 by omega)
  simp only [encode, h1, h2]
  congr <;> omega

theorem encode_one {w x : Nat} (hw : w < 64) (hx : x < 64) (hzero : x % 16 = 0) :
    encode [.ofNat (w * 4 + x / 16)] = [symbol w, symbol x, fill, fill] := by
  have h1 := Utf8.toNat_byte (show w * 4 + x / 16 < 256 by omega)
  simp only [encode, h1]
  congr <;> omega

theorem replicate_of_fillCount {first : Nat} : ∀ {bs : Bytes} {n : Nat}, fillCount first bs = .ok n →
    bs = .replicate n fill
  | [], n, h => by
    cases h
    rfl
  | b :: bs, n, h => by
    unfold fillCount at h
    split at h
    next hb =>
      obtain ⟨m, hm, rfl⟩ := map_eq_ok_iff.1 h
      rw [hb, List.replicate_succ, ← replicate_of_fillCount hm]
    next => cases h

theorem symbols_of_lastSymbols {offset : Nat} : ∀ {place : Nat} {bs : Bytes} {ns : List Nat} {fills : Nat},
    lastSymbols offset place bs = .ok (ns, fills) →
      bs = ns.map symbol ++ .replicate fills fill ∧ ∀ n ∈ ns, n < 64
  | place, [], ns, fills, h => by
    cases h
    simp
  | place, b :: bs, ns, fills, h => by
    unfold lastSymbols at h
    split at h
    next hb =>
      split at h
      next => cases h
      next =>
        obtain ⟨n, hn, heq⟩ := map_eq_ok_iff.1 h
        cases heq
        simp [hb, List.replicate_succ, ← replicate_of_fillCount hn]
    next =>
      split at h
      next => cases h
      next n hn =>
        obtain ⟨⟨ns', fills'⟩, hrest, heq⟩ := map_eq_ok_iff.1 h
        cases heq
        obtain ⟨hbs, hlt⟩ := symbols_of_lastSymbols hrest
        obtain ⟨hlt', rfl⟩ := number?_eq_some hn
        refine ⟨by simp [← hbs], ?_⟩
        rintro m (_ | ⟨_, hm⟩)
        · exact hlt'
        · exact hlt m hm

theorem encode_of_lastBytes {offset fills : Nat} {symbols : List Nat} {out : Bytes}
    (h : lastBytes offset symbols fills = .ok out) (hlt : ∀ n ∈ symbols, n < 64) :
    encode out = symbols.map symbol ++ .replicate fills fill := by
  unfold lastBytes at h
  split at h
  next => cases h
  next hlength =>
    split at h
    next => cases h
    next hfills =>
      -- the number of symbols tells that of the fills, and the bits that no byte takes are zero
      split at h
      next w x =>
        obtain rfl : fills = 2 := by
          simp at hfills
          omega
        split at h
        next => cases h
        next hzero =>
          cases h
          exact encode_one (hlt w (by simp)) (hlt x (by simp)) (by omega)
      next w x y =>
        obtain rfl : fills = 1 := by
          simp at hfills
          omega
        split at h
        next => cases h
        next hzero =>
          cases h
          exact encode_two (hlt w (by simp)) (hlt x (by simp)) (hlt y (by simp)) (by omega)
      next w x y z =>
        obtain rfl : fills = 0 := by
          simp at hfills
          omega
        cases h
        exact encode_group (hlt w (by simp)) (hlt x (by simp)) (hlt y (by simp)) (hlt z (by simp)) []
      next => cases h

theorem encode_of_decodeFrom {offset : Nat} {bs out : Bytes} (h : decodeFrom offset bs = .ok out) :
    encode out = bs := by
  fun_induction decodeFrom offset bs generalizing out with
  | case1 =>
    cases h
    rfl
  | case2 offset a b c d e rest ih =>
    obtain ⟨w, hw, h⟩ := bind_eq_ok_iff.1 h
    obtain ⟨x, hx, h⟩ := bind_eq_ok_iff.1 h
    obtain ⟨y, hy, h⟩ := bind_eq_ok_iff.1 h
    obtain ⟨z, hz, h⟩ := bind_eq_ok_iff.1 h
    obtain ⟨later, hlater, h⟩ := bind_eq_ok_iff.1 h
    cases h
    obtain ⟨hw', rfl⟩ := number_eq_ok hw
    obtain ⟨hx', rfl⟩ := number_eq_ok hx
    obtain ⟨hy', rfl⟩ := number_eq_ok hy
    obtain ⟨hz', rfl⟩ := number_eq_ok hz
    rw [encode_group hw' hx' hy' hz', ih hlater]
  | case3 offset group =>
    obtain ⟨⟨symbols, fills⟩, hsymbols, hbytes⟩ := bind_eq_ok_iff.1 h
    obtain ⟨rfl, hlt⟩ := symbols_of_lastSymbols hsymbols
    exact encode_of_lastBytes hbytes hlt

/-- Bytes that are read as a written form are the written form of what is read. -/
theorem encode_of_decode {bs out : Bytes} (h : decode bs = .ok out) : encode out = bs := by
  unfold decode at h
  split at h
  next =>
    split at h
    next => cases h
    next => exact encode_of_decodeFrom h
  next hnil =>
    cases h
    exact (List.getLast?_eq_none_iff.1 hnil).symm

/-! ## The written form as a text -/

theorem encode_ascii : ∀ (bs : Bytes), ∀ s ∈ encode bs, s.toNat < 0x80
  | [], s, h => nomatch h
  | [a], s, h => by
    have ha := a.toNat_lt
    simp only [encode, List.mem_cons, List.not_mem_nil, or_false] at h
    rcases h with rfl | rfl | rfl | rfl
    · exact toNat_symbol_lt _ (by omega)
    · exact toNat_symbol_lt _ (by omega)
    · decide
    · decide
  | [a, b], s, h => by
    have ha := a.toNat_lt
    have hb := b.toNat_lt
    simp only [encode, List.mem_cons, List.not_mem_nil, or_false] at h
    rcases h with rfl | rfl | rfl | rfl
    · exact toNat_symbol_lt _ (by omega)
    · exact toNat_symbol_lt _ (by omega)
    · exact toNat_symbol_lt _ (by omega)
    · decide
  | a :: b :: c :: rest, s, h => by
    have ha := a.toNat_lt
    have hb := b.toNat_lt
    have hc := c.toNat_lt
    simp only [encode, List.mem_cons] at h
    rcases h with rfl | rfl | rfl | rfl | h
    · exact toNat_symbol_lt _ (by omega)
    · exact toNat_symbol_lt _ (by omega)
    · exact toNat_symbol_lt _ (by omega)
    · exact toNat_symbol_lt _ (by omega)
    · exact encode_ascii rest s h

theorem encode_text (bs : Bytes) : Utf8.encode (text bs) = encode bs := Utf8.encode_ascii (encode_ascii bs)

end TernBackend.Base64
