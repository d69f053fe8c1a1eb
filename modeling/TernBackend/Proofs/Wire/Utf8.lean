import TernBackend.Proofs.Except
import TernBackend.Wire.Utf8

/-!
# UTF-8 round trip

The bytes of a text are read back as that text (`decode_encode`). Each of the four widths is one case:
the first byte tells the width, the bounds on the code point keep the second byte in its range, and the
six-bit pieces add up to the code point again.

Conversely, bytes that are read as a text are the bytes of that text (`encode_of_decode`): the second byte
is kept in its range so that no code point has a longer form, and none is beyond the last one.

A reading that replaces what is no character gives a text back, too (`lossy_encode`), but what it gives for other
bytes does not tell them apart.
-/

namespace TernBackend.Utf8

/-! ## One character -/

theorem toNat_byte {n : Nat} (h : n < 256) : (UInt8.ofNat n).toNat = n := by
  rw [UInt8.toNat_ofNat']
  exact Nat.mod_eq_of_lt h

theorem ofNat_eq {n : Nat} {a : UInt8} (h : n = a.toNat) : UInt8.ofNat n = a := by
  rw [h, UInt8.ofNat_toNat]

theorem toNat_ofNat {n : Nat} (h : n.isValidChar) : (Char.ofNat n).toNat = n := by
  rw [Char.ofNat, dif_pos h]
  exact UInt32.toNat_ofNatLT

/-- A code point is below the surrogates, or above them and not beyond the last one. -/
theorem toNat_bounds (c : Char) : c.toNat < 0xD800 ∨ 0xDFFF < c.toNat ∧ c.toNat < 0x110000 := c.valid

theorem character_eq {high : Nat} {later : List Nat} {c : Char}
    (h : later.foldl (fun n b => 64 * n + (b - 0x80)) high = c.toNat) : character high later = c := by
  rw [character, h, Char.ofNat_toNat]

theorem decodeAt_one {c : Char} (h : c.toNat < 0x80) (position : Nat) (rest : Bytes) :
    decodeAt position (.ofNat c.toNat :: rest) = (decodeAt (position + 1) rest).map (c :: ·) := by
  have hbyte := toNat_byte (show c.toNat < 256 by omega)
  have hwidth : width? c.toNat = some 1 := if_pos h
  have hchar : character c.toNat [] = c := character_eq rfl
  rw [decodeAt.eq_def]
  simp only [hbyte, hwidth, hchar]

theorem decodeAt_two {c : Char} (h : 0x80 ≤ c.toNat) (h' : c.toNat < 0x800) (position : Nat)
    (rest : Bytes) :
    decodeAt position (.ofNat (0xC0 + c.toNat / 64) :: .ofNat (0x80 + c.toNat % 64) :: rest) =
      (decodeAt (position + 2) rest).map (c :: ·) := by
  have hfirst := toNat_byte (show 0xC0 + c.toNat / 64 < 256 by omega)
  have hsecond := toNat_byte (show 0x80 + c.toNat % 64 < 256 by omega)
  have hwidth : width? (0xC0 + c.toNat / 64) = some 2 := by
    rw [width?, if_neg (by omega), if_pos (by omega)]
  have hok : isSecond (0xC0 + c.toNat / 64) (0x80 + c.toNat % 64) = true := by
    rw [isSecond, if_neg (by omega), if_neg (by omega), if_neg (by omega), if_neg (by omega)]
    simp
    omega
  have hchar : character (0xC0 + c.toNat / 64 - 0xC0) [0x80 + c.toNat % 64] = c := by
    refine character_eq ?_
    simp only [List.foldl_cons, List.foldl_nil]
    omega
  rw [decodeAt.eq_def]
  simp only [hfirst, hwidth, hsecond, hok, hchar]
  rfl

theorem isLater_byte (n : Nat) : isLater (0x80 + n % 64) = true := by
  simp [isLater]
  omega

theorem decodeAt_three {c : Char} (h : 0x800 ≤ c.toNat) (h' : c.toNat < 0x10000) (position : Nat)
    (rest : Bytes) :
    decodeAt position (.ofNat (0xE0 + c.toNat / 4096) :: .ofNat (0x80 + c.toNat / 64 % 64) ::
      .ofNat (0x80 + c.toNat % 64) :: rest) = (decodeAt (position + 3) rest).map (c :: ·) := by
  have hbounds := toNat_bounds c
  have hfirst := toNat_byte (show 0xE0 + c.toNat / 4096 < 256 by omega)
  have hsecond := toNat_byte (show 0x80 + c.toNat / 64 % 64 < 256 by omega)
  have hthird := toNat_byte (show 0x80 + c.toNat % 64 < 256 by omega)
  have hwidth : width? (0xE0 + c.toNat / 4096) = some 3 := by
    rw [width?, if_neg (by omega), if_neg (by omega), if_pos (by omega)]
  -- E0 and ED narrow the second byte: shorter forms and surrogates are out, and `c` needs neither
  have hok : isSecond (0xE0 + c.toNat / 4096) (0x80 + c.toNat / 64 % 64) = true := by
    simp only [isSecond, Bool.and_eq_true, decide_eq_true_eq]
    constructor
    · split
      · omega
      · rw [if_neg (by omega)]
        omega
    · split
      · omega
      · rw [if_neg (by omega)]
        omega
  have hchar : character (0xE0 + c.toNat / 4096 - 0xE0)
      [0x80 + c.toNat / 64 % 64, 0x80 + c.toNat % 64] = c := by
    refine character_eq ?_
    simp only [List.foldl_cons, List.foldl_nil]
    omega
  rw [decodeAt.eq_def]
  simp only [hfirst, hwidth, hsecond, hok, hthird, isLater_byte, hchar]
  rfl

theorem decodeAt_four {c : Char} (h : 0x10000 ≤ c.toNat) (position : Nat) (rest : Bytes) :
    decodeAt position (.ofNat (0xF0 + c.toNat / 262144) :: .ofNat (0x80 + c.toNat / 4096 % 64) ::
      .ofNat (0x80 + c.toNat / 64 % 64) :: .ofNat (0x80 + c.toNat % 64) :: rest) =
      (decodeAt (position + 4) rest).map (c :: ·) := by
  have hbounds := toNat_bounds c
  have hfirst := toNat_byte (show 0xF0 + c.toNat / 262144 < 256 by omega)
  have hsecond := toNat_byte (show 0x80 + c.toNat / 4096 % 64 < 256 by omega)
  have hthird := toNat_byte (show 0x80 + c.toNat / 64 % 64 < 256 by omega)
  have hfourth := toNat_byte (show 0x80 + c.toNat % 64 < 256 by omega)
  have hwidth : width? (0xF0 + c.toNat / 262144) = some 4 := by
    rw [width?, if_neg (by omega), if_neg (by omega), if_neg (by omega), if_pos (by omega)]
  -- F0 and F4 narrow the second byte: shorter forms and what is beyond the last code point are out
  have hok : isSecond (0xF0 + c.toNat / 262144) (0x80 + c.toNat / 4096 % 64) = true := by
    simp only [isSecond, Bool.and_eq_true, decide_eq_true_eq]
    constructor
    · rw [if_neg (by omega)]
      split <;> omega
    · rw [if_neg (by omega)]
      split <;> omega
  have hchar : character (0xF0 + c.toNat / 262144 - 0xF0)
      [0x80 + c.toNat / 4096 % 64, 0x80 + c.toNat / 64 % 64, 0x80 + c.toNat % 64] = c := by
    refine character_eq ?_
    simp only [List.foldl_cons, List.foldl_nil]
    omega
  rw [decodeAt.eq_def]
  simp only [hfirst, hwidth, hsecond, hok, hthird, hfourth, isLater_byte, hchar]
  rfl

theorem decodeAt_encodeChar (c : Char) (position : Nat) (rest : Bytes) :
    ∃ next, decodeAt position (encodeChar c ++ rest) = (decodeAt next rest).map (c :: ·) := by
  by_cases h1 : c.toNat < 0x80
  · rw [encodeChar, if_pos h1]
    exact ⟨_, decodeAt_one h1 position rest⟩
  by_cases h2 : c.toNat < 0x800
  · rw [encodeChar, if_neg h1, if_pos h2]
    exact ⟨_, decodeAt_two (by omega) h2 position rest⟩
  by_cases h3 : c.toNat < 0x10000
  · rw [encodeChar, if_neg h1, if_neg h2, if_pos h3]
    exact ⟨_, decodeAt_three (by omega) h3 position rest⟩
  · rw [encodeChar, if_neg h1, if_neg h2, if_neg h3]
    exact ⟨_, decodeAt_four (by omega) position rest⟩

/-! ## All of a text -/

theorem decodeAt_flatMap (cs : List Char) (position : Nat) :
    decodeAt position (cs.flatMap encodeChar) = .ok cs := by
  induction cs generalizing position with
  | nil => rw [List.flatMap_nil, decodeAt.eq_def]
  | cons c cs ih =>
    obtain ⟨next, hnext⟩ := decodeAt_encodeChar c position (cs.flatMap encodeChar)
    rw [List.flatMap_cons, hnext, ih]
    rfl

/-- The bytes of a text are read back as that text. -/
theorem decode_encode (s : String) : decode (encode s) = .ok s := by
  rw [decode, encode, decodeAt_flatMap]
  exact congrArg Except.ok (String.ofList_toList)

/-! ## What is read was written -/

theorem width?_eq_some {a n : Nat} (h : width? a = some n) :
    n = 1 ∧ a < 0x80 ∨ n = 2 ∧ 0xC2 ≤ a ∧ a ≤ 0xDF ∨ n = 3 ∧ 0xE0 ≤ a ∧ a ≤ 0xEF ∨
      n = 4 ∧ 0xF0 ≤ a ∧ a ≤ 0xF4 := by
  unfold width? at h
  grind

theorem isLater_iff {b : Nat} : isLater b = true ↔ 0x80 ≤ b ∧ b ≤ 0xBF := by
  simp [isLater]

/-- The second byte is narrowed after four first bytes. -/
theorem isSecond_iff {a b : Nat} : isSecond a b = true ↔ 0x80 ≤ b ∧ b ≤ 0xBF ∧
    (a = 0xE0 → 0xA0 ≤ b) ∧ (a = 0xED → b ≤ 0x9F) ∧ (a = 0xF0 → 0x90 ≤ b) ∧ (a = 0xF4 → b ≤ 0x8F) := by
  simp only [isSecond, Bool.and_eq_true, decide_eq_true_eq]
  grind

theorem encodeChar_one {a : UInt8} (h : width? a.toNat = some 1) :
    encodeChar (character a.toNat []) = [a] := by
  have hwidth := width?_eq_some h
  have hchar : (character a.toNat []).toNat = a.toNat := toNat_ofNat (.inl (by simp; omega))
  simp only [encodeChar, hchar]
  rw [if_pos (by omega), UInt8.ofNat_toNat]

theorem encodeChar_two {a b : UInt8} (h : width? a.toNat = some 2) (hb : isSecond a.toNat b.toNat = true) :
    encodeChar (character (a.toNat - 0xC0) [b.toNat]) = [a, b] := by
  have hwidth := width?_eq_some h
  have hsecond := isSecond_iff.1 hb
  have hchar : (character (a.toNat - 0xC0) [b.toNat]).toNat = 64 * (a.toNat - 0xC0) + (b.toNat - 0x80) :=
    toNat_ofNat (.inl (by simp; omega))
  simp only [encodeChar, hchar]
  rw [if_neg (by omega), if_pos (by omega), ofNat_eq (a := a) (by omega), ofNat_eq (a := b) (by omega)]

theorem encodeChar_three {a b c : UInt8} (h : width? a.toNat = some 3)
    (hb : isSecond a.toNat b.toNat = true) (hc : isLater c.toNat = true) :
    encodeChar (character (a.toNat - 0xE0) [b.toNat, c.toNat]) = [a, b, c] := by
  have hwidth := width?_eq_some h
  have hsecond := isSecond_iff.1 hb
  have hthird := isLater_iff.1 hc
  have hchar : (character (a.toNat - 0xE0) [b.toNat, c.toNat]).toNat =
      64 * (64 * (a.toNat - 0xE0) + (b.toNat - 0x80)) + (c.toNat - 0x80) := by
    -- after ED the second byte is below A0, so this is no surrogate
    refine toNat_ofNat ?_
    simp only [List.foldl_cons, List.foldl_nil, Nat.isValidChar]
    omega
  simp only [encodeChar, hchar]
  rw [if_neg (by omega), if_neg (by omega), if_pos (by omega), ofNat_eq (a := a) (by omega),
    ofNat_eq (a := b) (by omega), ofNat_eq (a := c) (by omega)]

theorem encodeChar_four {a b c d : UInt8} (h : width? a.toNat = some 4)
    (hb : isSecond a.toNat b.toNat = true) (hc : isLater c.toNat = true) (hd : isLater d.toNat = true) :
    encodeChar (character (a.toNat - 0xF0) [b.toNat, c.toNat, d.toNat]) = [a, b, c, d] := by
  have hwidth := width?_eq_some h
  have hsecond := isSecond_iff.1 hb
  have hthird := isLater_iff.1 hc
  have hfourth := isLater_iff.1 hd
  have hchar : (character (a.toNat - 0xF0) [b.toNat, c.toNat, d.toNat]).toNat =
      64 * (64 * (64 * (a.toNat - 0xF0) + (b.toNat - 0x80)) + (c.toNat - 0x80)) + (d.toNat - 0x80) := by
    -- after F4 the second byte is below 90, so this is not beyond the last code point
    refine toNat_ofNat ?_
    simp only [List.foldl_cons, List.foldl_nil, Nat.isValidChar]
    omega
  simp only [encodeChar, hchar]
  rw [if_neg (by omega), if_neg (by omega), if_neg (by omega), ofNat_eq (a := a) (by omega),
    ofNat_eq (a := b) (by omega), ofNat_eq (a := c) (by omega), ofNat_eq (a := d) (by omega)]

theorem flatMap_of_decodeAt {position : Nat} {bs : Bytes} {cs : List Char}
    (h : decodeAt position bs = .ok cs) : cs.flatMap encodeChar = bs := by
  fun_induction decodeAt position bs generalizing cs with
  | case1 => simp_all
  -- where something is refused, nothing is read
  | case2 | case4 | case5 | case7 | case8 | case10 | case11 => cases h
  | case3 position a rest hwidth ih =>
    obtain ⟨later, hlater, rfl⟩ := map_eq_ok_iff.1 h
    rw [List.flatMap_cons, ih hlater, encodeChar_one hwidth]
    rfl
  | case6 position a b rest hb _ hwidth ih =>
    obtain ⟨later, hlater, rfl⟩ := map_eq_ok_iff.1 h
    rw [List.flatMap_cons, ih hlater, encodeChar_two hwidth (by simpa using hb)]
    rfl
  | case9 position a b hb c rest hc _ hwidth _ ih =>
    obtain ⟨later, hlater, rfl⟩ := map_eq_ok_iff.1 h
    rw [List.flatMap_cons, ih hlater, encodeChar_three hwidth (by simpa using hb) (by simpa using hc)]
    rfl
  | case12 position a n h1 hwidth b hb h2 c hc h3 d rest hd ih =>
    obtain ⟨later, hlater, rfl⟩ := map_eq_ok_iff.1 h
    -- widths 1, 2 and 3 have been ruled out
    have hn : n = 4 := by
      have hone : n ≠ 1 := h1
      have hcases := width?_eq_some hwidth
      omega
    subst hn
    rw [List.flatMap_cons, ih hlater,
      encodeChar_four hwidth (by simpa using hb) (by simpa using hc) (by simpa using hd)]
    rfl

/-- Bytes that are read as a text are the bytes of that text. -/
theorem encode_of_decode {bs : Bytes} {s : String} (h : decode bs = .ok s) : encode s = bs := by
  obtain ⟨cs, hcs, rfl⟩ := map_eq_ok_iff.1 h
  rw [encode, String.toList_ofList, flatMap_of_decodeAt hcs]

theorem encode_injective {s s' : String} (h : encode s = encode s') : s = s' := by
  have hs := decode_encode s
  rw [h, decode_encode] at hs
  exact (Except.ok.inj hs).symm

/-! ## Reading whatever there is -/

/-- Where nothing is wrong, nothing is replaced. -/
theorem lossyChars_of_decodeAt {position : Nat} {bs : Bytes} {cs : List Char} (h : decodeAt position bs = .ok cs) :
    lossyChars bs = cs := by
  fun_induction decodeAt position bs generalizing cs with
  | case1 =>
    cases h
    rfl
  | case2 | case4 | case5 | case7 | case8 | case10 | case11 => cases h
  | case3 position a rest hwidth ih =>
    obtain ⟨later, hlater, rfl⟩ := map_eq_ok_iff.1 h
    rw [lossyChars]
    simp only [hwidth, ih hlater]
  | case6 position a b rest hb _ hwidth ih =>
    obtain ⟨later, hlater, rfl⟩ := map_eq_ok_iff.1 h
    rw [lossyChars]
    simp only [hwidth, hb, ih hlater, if_true]
    rfl
  | case9 position a b hb c rest hc _ hwidth _ ih =>
    obtain ⟨later, hlater, rfl⟩ := map_eq_ok_iff.1 h
    rw [lossyChars]
    simp only [hwidth, hb, hc, ih hlater]
    rfl
  | case12 position a n h1 hwidth b hb h2 c hc h3 d rest hd ih =>
    obtain ⟨later, hlater, rfl⟩ := map_eq_ok_iff.1 h
    rw [lossyChars]
    simp only [hwidth, hb, hc, hd, ih hlater, h2, h3]
    rfl

/-- A text is shown as it is. -/
@[simp] theorem lossy_encode (s : String) : lossy (encode s) = s := by
  rw [lossy, encode, lossyChars_of_decodeAt (decodeAt_flatMap s.toList 0), String.ofList_toList]

theorem encode_eq_nil_iff {s : String} : encode s = [] ↔ s = "" := by
  constructor
  · intro h
    rw [← lossy_encode s, h]
    rfl
  · rintro rfl
    rfl

/-- Something is shown for every byte. -/
theorem lossy_ne_empty {bs : Bytes} (h : bs ≠ []) : lossy bs ≠ "" := by
  have hchars : lossyChars bs ≠ [] := by
    fun_cases lossyChars bs <;> simp at h ⊢
  simpa [lossy] using hchars

/-! ## Bytes that are a text -/

def IsText (bs : Bytes) : Prop := ∃ s, encode s = bs

theorem isText_encode (s : String) : IsText (encode s) := ⟨s, rfl⟩

theorem IsText.encode_lossy {bs : Bytes} (h : IsText bs) : encode (lossy bs) = bs := by
  obtain ⟨s, rfl⟩ := h
  rw [lossy_encode]

theorem encode_append (s t : String) : encode (s ++ t) = encode s ++ encode t := by
  simp [encode, String.toList_append]

theorem IsText.append {bs bs' : Bytes} (h : IsText bs) (h' : IsText bs') : IsText (bs ++ bs') := by
  obtain ⟨s, rfl⟩ := h
  obtain ⟨s', rfl⟩ := h'
  exact ⟨s ++ s', encode_append s s'⟩

/-- Only a character below 128 has a byte below 128, and that byte is the character. -/
theorem eq_of_mem_encodeChar {c : Char} {b : UInt8} (h : b ∈ encodeChar c) (hb : b.toNat < 0x80) :
    c.toNat = b.toNat := by
  have hbounds := toNat_bounds c
  unfold encodeChar at h
  simp only at h
  split at h
  next hone =>
    rw [List.mem_singleton.1 h, toNat_byte (by omega)]
  next =>
    -- every byte of a longer character is 128 or more
    exfalso
    have hhigh : ∀ n, 0x80 ≤ n → n < 256 → b ≠ .ofNat n := by
      rintro n hn hn' rfl
      rw [toNat_byte hn'] at hb
      omega
    split at h
    · simp only [List.mem_cons, List.not_mem_nil, or_false] at h
      rcases h with h | h <;> exact hhigh _ (by omega) (by omega) h
    split at h
    · simp only [List.mem_cons, List.not_mem_nil, or_false] at h
      rcases h with h | h | h <;> exact hhigh _ (by omega) (by omega) h
    · simp only [List.mem_cons, List.not_mem_nil, or_false] at h
      rcases h with h | h | h | h <;> exact hhigh _ (by omega) (by omega) h

/-! ## ASCII -/

/-- Bytes below 128, each taken as a character, make a text of just these bytes. -/
theorem encode_ascii {bs : Bytes} (h : ∀ b ∈ bs, b.toNat < 0x80) :
    encode (.ofList (bs.map fun b => Char.ofNat b.toNat)) = bs := by
  rw [encode, String.toList_ofList]
  induction bs with
  | nil => rfl
  | cons b bs ih =>
    have hb : b.toNat < 0x80 := h b List.mem_cons_self
    have hchar : (Char.ofNat b.toNat).toNat = b.toNat := toNat_ofNat (.inl (by omega))
    rw [List.map_cons, List.flatMap_cons, ih fun x hx => h x (List.mem_cons_of_mem _ hx)]
    rw [encodeChar, hchar, if_pos hb, UInt8.ofNat_toNat]
    rfl

end TernBackend.Utf8
