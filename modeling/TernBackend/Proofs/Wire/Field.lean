import Mathlib
import TernBackend.Proofs.Wire.Utf8
import TernBackend.Wire.Field

/-!
# Fields round trip

What was written is read back, whatever bytes follow (`Reads`). Numbers need no condition. A text or a
list needs that its length fits into the eight bytes it is written in.

Conversely, the bytes that a decoder takes are those that its encoder writes for what it reads
(`Canonical`), so no value has a second form.
-/

namespace TernBackend.Wire

/-! ## Numbers as bytes -/

@[simp] theorem length_littleEndian (width n : Nat) : (littleEndian width n).length = width := by
  induction width generalizing n with
  | zero => rfl
  | succ width ih => rw [littleEndian, List.length_cons, ih]

theorem value_littleEndian (width n : Nat) : value (littleEndian width n) = n % 256 ^ width := by
  induction width generalizing n with
  | zero => rw [littleEndian, value, Nat.pow_zero, Nat.mod_one]
  | succ width ih =>
    have hbyte : (UInt8.ofNat (n % 256)).toNat = n % 256 := Utf8.toNat_byte (Nat.mod_lt n (by decide))
    rw [littleEndian, value, hbyte, ih, Nat.pow_succ', Nat.mod_mul]

theorem value_littleEndian_of_lt {width n : Nat} (h : n < 256 ^ width) :
    value (littleEndian width n) = n := by
  rw [value_littleEndian, Nat.mod_eq_of_lt h]

theorem cut?_append (front rest : Bytes) : cut? front.length (front ++ rest) = some (front, rest) := by
  induction front with
  | nil => rfl
  | cons b front ih => rw [List.length_cons, List.cons_append, cut?, ih, Option.map_some]

theorem cut?_eq_some_iff {n : Nat} {bs front rest : Bytes} :
    cut? n bs = some (front, rest) ↔ bs = front ++ rest ∧ front.length = n := by
  constructor
  · induction n generalizing bs front with
    | zero => simp +contextual [cut?, eq_comm]
    | succ n ih =>
      cases bs with
      | nil => simp [cut?]
      | cons b bs =>
        simp only [cut?, Option.map_eq_some_iff]
        rintro ⟨⟨front', rest'⟩, hcut, heq⟩
        simp only [Prod.mk.injEq] at heq
        obtain ⟨rfl, rfl⟩ := heq
        obtain ⟨rfl, rfl⟩ := ih hcut
        simp
  · rintro ⟨rfl, rfl⟩
    exact cut?_append front rest

theorem cut?_eq_none_iff {n : Nat} {bs : Bytes} : cut? n bs = none ↔ bs.length < n := by
  constructor
  · intro h
    by_contra hlong
    have hcut := cut?_append (bs.take n) (bs.drop n)
    rw [List.take_append_drop, List.length_take, Nat.min_eq_left (by omega), h] at hcut
    cases hcut
  · intro h
    cases hcut : cut? n bs with
    | none => rfl
    | some cut =>
      obtain ⟨rfl, hlength⟩ := cut?_eq_some_iff.1 hcut
      simp at h
      omega

theorem value_lt (bs : Bytes) : value bs < 256 ^ bs.length := by
  induction bs with
  | nil => simp [value]
  | cons b bs ih =>
    have hb := b.toNat_lt
    simp only [value, List.length_cons, Nat.pow_succ]
    omega

theorem littleEndian_value (bs : Bytes) : littleEndian bs.length (value bs) = bs := by
  induction bs with
  | nil => rfl
  | cons b bs ih =>
    have hb := b.toNat_lt
    have hlow : (b.toNat + 256 * value bs) % 256 = b.toNat := by omega
    have hhigh : (b.toNat + 256 * value bs) / 256 = value bs := by omega
    simp only [List.length_cons, value, littleEndian, hlow, hhigh, ih, UInt8.ofNat_toNat]

/-! ## Reading back -/

/-- The decoder reads `a` from `bs`, whatever bytes follow. -/
def Reads {α : Type} (decode : Decoder α) (bs : Bytes) (a : α) : Prop :=
  ∀ rest, decode (bs ++ rest) = .ok (a, rest)

theorem reads_word (n : UInt64) : Reads decodeWord (encodeWord n) n := by
  intro rest
  have hlength : (encodeWord n).length = 8 := length_littleEndian 8 _
  have hcut : cut? 8 (encodeWord n ++ rest) = some (encodeWord n, rest) := by
    rw [← hlength]
    exact cut?_append _ _
  have hvalue : value (encodeWord n) = n.toNat := value_littleEndian_of_lt n.toNat_lt
  rw [decodeWord, hcut]
  simp only [hvalue, UInt64.ofNat_toNat]

theorem toNat_count {n : Nat} (h : n < 2 ^ 64) : (UInt64.ofNat n).toNat = n := by
  rw [UInt64.toNat_ofNat']
  exact Nat.mod_eq_of_lt h

theorem reads_text {s : String} (h : (Utf8.encode s).length < 2 ^ 64) :
    Reads decodeText (encodeText s) s := by
  intro rest
  have hword := reads_word (.ofNat (Utf8.encode s).length) (Utf8.encode s ++ rest)
  rw [encodeText, encodeCount, decodeText, List.append_assoc, hword]
  simp only [bind, Except.bind, toNat_count h, cut?_append, Utf8.decode_encode]
  rfl

theorem reads_times {α : Type} {decode : Decoder α} {encode : α → Bytes} {as : List α}
    (h : ∀ a ∈ as, Reads decode (encode a) a) :
    Reads (decodeTimes decode as.length) (as.flatMap encode) as := by
  intro rest
  induction as with
  | nil => rfl
  | cons a as ih =>
    have ha := h a List.mem_cons_self (as.flatMap encode ++ rest)
    have has := ih fun b hb => h b (List.mem_cons_of_mem _ hb)
    rw [List.flatMap_cons, List.append_assoc, List.length_cons, decodeTimes, ha]
    simp only [bind, Except.bind, has]
    rfl

theorem reads_list {α : Type} {decode : Decoder α} {encode : α → Bytes} {as : List α}
    (hcount : as.length < 2 ^ 64) (h : ∀ a ∈ as, Reads decode (encode a) a) :
    Reads (decodeList decode) (encodeList encode as) as := by
  intro rest
  have hword := reads_word (.ofNat as.length) (as.flatMap encode ++ rest)
  rw [encodeList, encodeCount, decodeList, List.append_assoc, hword]
  simp only [bind, Except.bind, toNat_count hcount]
  exact reads_times h rest

/-! ## What is read was written -/

/-- The bytes that the decoder takes are those that the encoder writes for what it reads. -/
def Canonical {α : Type} (decode : Decoder α) (encode : α → Bytes) : Prop :=
  ∀ {bs rest : Bytes} {a : α}, decode bs = .ok (a, rest) → bs = encode a ++ rest

theorem encodeWord_value {bs : Bytes} (h : bs.length = 8) : encodeWord (.ofNat (value bs)) = bs := by
  have hvalue : (UInt64.ofNat (value bs)).toNat = value bs := toNat_count (by simpa [h] using value_lt bs)
  rw [encodeWord, hvalue, ← h, littleEndian_value]

theorem canonical_word : Canonical decodeWord encodeWord := by
  intro bs rest n h
  unfold decodeWord at h
  split at h
  next front rest' hcut =>
    obtain ⟨rfl, hlength⟩ := cut?_eq_some_iff.1 hcut
    cases h
    rw [encodeWord_value hlength]
  next => cases h

theorem canonical_text : Canonical decodeText encodeText := by
  intro bs rest s h
  obtain ⟨⟨length, bs'⟩, hword, htext⟩ := bind_eq_ok_iff.1 h
  rw [canonical_word hword]
  dsimp only at htext
  split at htext
  next => cases htext
  next front rest' hcut =>
    obtain ⟨rfl, hlength⟩ := cut?_eq_some_iff.1 hcut
    split at htext
    next s' hs =>
      cases htext
      rw [encodeText, encodeCount, Utf8.encode_of_decode hs, hlength, UInt64.ofNat_toNat, List.append_assoc]
    next => cases htext

theorem canonical_times {α : Type} {decode : Decoder α} {encode : α → Bytes} (hdecode : Canonical decode encode) :
    ∀ {n : Nat} {bs rest : Bytes} {as : List α}, decodeTimes decode n bs = .ok (as, rest) →
      as.length = n ∧ bs = as.flatMap encode ++ rest
  | 0, bs, rest, as, h => by
    cases h
    simp
  | n + 1, bs, rest, as, h => by
    obtain ⟨⟨a, bs'⟩, ha, h⟩ := bind_eq_ok_iff.1 h
    obtain ⟨⟨as', rest'⟩, has, h⟩ := bind_eq_ok_iff.1 h
    cases h
    obtain ⟨hlength, rfl⟩ := canonical_times hdecode has
    rw [hdecode ha]
    simp [hlength]

theorem canonical_list {α : Type} {decode : Decoder α} {encode : α → Bytes} (hdecode : Canonical decode encode) :
    Canonical (decodeList decode) (encodeList encode) := by
  intro bs rest as h
  obtain ⟨⟨count, bs'⟩, hword, h⟩ := bind_eq_ok_iff.1 h
  obtain ⟨hlength, rfl⟩ := canonical_times hdecode h
  rw [canonical_word hword, encodeList, encodeCount, hlength, UInt64.ofNat_toNat, List.append_assoc]

/-! ## Lengths -/

@[simp] theorem length_encodeWord (n : UInt64) : (encodeWord n).length = 8 := length_littleEndian 8 _

theorem length_encodeText (s : String) : (encodeText s).length = 8 + (Utf8.encode s).length := by
  rw [encodeText, encodeCount, List.length_append, length_encodeWord]

theorem length_encodeList {α : Type} (encode : α → Bytes) (as : List α) :
    (encodeList encode as).length = 8 + (as.flatMap encode).length := by
  rw [encodeList, encodeCount, List.length_append, length_encodeWord]

/-- An element takes no more bytes than the list. -/
theorem length_le_flatMap {α : Type} {encode : α → Bytes} {a : α} {as : List α} (h : a ∈ as) :
    (encode a).length ≤ (as.flatMap encode).length := by
  obtain ⟨before, after, rfl⟩ := List.append_of_mem h
  rw [List.flatMap_append, List.flatMap_cons, List.length_append, List.length_append]
  omega

/-- When every element takes a number of bytes at least, the list takes so many for each. -/
theorem length_le_length_flatMap {α : Type} {encode : α → Bytes} {width : Nat}
    (h : ∀ a, width ≤ (encode a).length) (as : List α) : width * as.length ≤ (as.flatMap encode).length := by
  induction as with
  | nil => simp
  | cons a as ih =>
    have ha := h a
    rw [List.length_cons, List.flatMap_cons, List.length_append, Nat.mul_succ]
    omega

end TernBackend.Wire
