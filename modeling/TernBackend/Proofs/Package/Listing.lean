import TernBackend.Package.Listing
import TernBackend.Proofs.Wire.Exact

/-!
# The written form of package listings

A listing is read back from what was written of it, whatever bytes follow (`PackageListing.decode_encode`), and
bytes are read as a listing only if they begin with its written form. All other bytes are refused, and
`NoListing` goes through them: the first number or text that cannot be read decides. So no written form is the
start of another one, and none may be cut short (`listing_codec`).
-/

namespace TernBackend.PackageListing

/-- The count of the names, and the length of each of them in bytes, can be written in eight bytes. -/
def Fits (l : PackageListing) : Prop :=
  l.packages.length < 2 ^ 64 ∧ ∀ name ∈ l.packages, (Utf8.encode name).length < 2 ^ 64

theorem length_encode (l : PackageListing) :
    l.encode.length = 8 + (l.packages.flatMap Wire.encodeText).length :=
  Wire.length_encodeList Wire.encodeText l.packages

/-- Every name takes the eight bytes of its length at least. -/
theorem length_names_le (names : List String) : 8 * names.length ≤ (names.flatMap Wire.encodeText).length := by
  refine Wire.length_le_length_flatMap (fun name => ?_) names
  rw [Wire.length_encodeText]
  omega

theorem fits_of_length_lt {l : PackageListing} (h : l.encode.length < 2 ^ 64) : l.Fits := by
  rw [length_encode] at h
  refine ⟨?_, fun name hname => ?_⟩
  · have hle := length_names_le l.packages
    omega
  · have hle : (Wire.encodeText name).length ≤ _ := Wire.length_le_flatMap hname
    rw [Wire.length_encodeText] at hle
    omega

/-! ## Reading -/

theorem exact_names : Wire.Exact (Wire.decodeList Wire.decodeText) (Wire.encodeList Wire.encodeText)
    fun names => Fits ⟨names⟩ := Wire.exact_text.list

theorem decode_encode_of_fits {l : PackageListing} (h : l.Fits) (rest : Bytes) :
    decode (l.encode ++ rest) = .ok l := by
  have hread := exact_names.reads h rest
  rw [decode, encode, hread]
  rfl

theorem decode_encode {l : PackageListing} (h : l.encode.length < 2 ^ 64) (rest : Bytes) :
    decode (l.encode ++ rest) = .ok l :=
  decode_encode_of_fits (fits_of_length_lt h) rest

theorem of_decode {bs : Bytes} {l : PackageListing} (h : decode bs = .ok l) : l.Fits ∧ l.encode <+: bs := by
  obtain ⟨⟨names, rest⟩, hread, rfl⟩ := map_eq_ok_iff.1 h
  exact ⟨exact_names.fits hread, rest, (exact_names.canonical hread).symm⟩

/-! ## Refusals -/

/-- Bytes at whose start no listing can be read, and why. -/
inductive NoListing : Bytes → Wire.Fault → Prop
  /-- The bytes end within the count. -/
  | noCount {bs : Bytes} : bs.length < 8 → NoListing bs .endOfInput
  /-- Fewer names than the count says can be read, since behind them there is no text. -/
  | noName {count : UInt64} {names : List String} {rest : Bytes} {fault : Wire.Fault} :
    names.length < count.toNat → (∀ name ∈ names, (Utf8.encode name).length < 2 ^ 64) → Wire.NoText rest fault →
    NoListing (Wire.encodeWord count ++ (names.flatMap Wire.encodeText ++ rest)) fault

theorem decode_eq_error_iff {bs : Bytes} {fault : Wire.Fault} : decode bs = .error fault ↔ NoListing bs fault := by
  rw [decode, map_eq_error_iff, Wire.decodeList, bind_eq_error_iff]
  constructor
  · rintro (hcount | ⟨⟨count, later⟩, hcount, htimes⟩)
    · obtain ⟨hshort, rfl⟩ := Wire.decodeWord_eq_error_iff.1 hcount
      exact .noCount hshort
    · obtain rfl := Wire.canonical_word hcount
      obtain ⟨names, rest, hlength, hfits, rfl, hrest⟩ := Wire.exact_text.times_eq_error_iff.1 htimes
      exact .noName hlength hfits (Wire.decodeText_eq_error_iff.1 hrest)
  · rintro (hshort | ⟨hlength, hfits, hrest⟩)
    · exact .inl (Wire.decodeWord_eq_error_iff.2 ⟨hshort, rfl⟩)
    · refine .inr ⟨_, Wire.reads_word _ _, Wire.exact_text.times_eq_error_iff.2 ?_⟩
      exact ⟨_, _, hlength, hfits, rfl, Wire.decodeText_eq_error_iff.2 hrest⟩

/-- A count that the bytes behind it cannot fill, as every name takes eight bytes at least. -/
theorem exists_error_of_count {count : UInt64} {rest : Bytes} (h : rest.length < 8 * count.toNat) :
    ∃ fault, decode (Wire.encodeWord count ++ rest) = .error fault := by
  cases hread : decode (Wire.encodeWord count ++ rest) with
  | error fault => exact ⟨fault, rfl⟩
  | ok l =>
    obtain ⟨⟨names, later⟩, hlist, -⟩ := map_eq_ok_iff.1 hread
    obtain ⟨⟨count', rest'⟩, hcount, htimes⟩ := bind_eq_ok_iff.1 hlist
    rw [Wire.reads_word] at hcount
    cases hcount
    obtain ⟨hlength, rfl⟩ := Wire.canonical_times Wire.canonical_text htimes
    have hle := length_names_le names
    rw [List.length_append] at h
    omega

/-! ## The result -/

/-- **Listings have one written form, and no other bytes begin with a listing.** A listing whose counts fit
into their fields is read back, whatever bytes follow it. What is read as a listing begins with the written
form of that listing. So no written form is the start of the form of another listing, and the form of a listing
is refused when it is cut short anywhere. Bytes are refused just when `NoListing` tells what is missing in them,
and with that fault; among these are all counts that the bytes behind them cannot fill, all lengths of names
that reach past the end, and all names whose bytes are those of no text. -/
theorem listing_codec :
    (∀ l : PackageListing, l.Fits → ∀ rest, decode (l.encode ++ rest) = .ok l) ∧
    (∀ bs l, decode bs = .ok l → l.Fits ∧ l.encode <+: bs) ∧
    (∀ l l' : PackageListing, l.Fits → l'.Fits → l.encode <+: l'.encode → l = l') ∧
    (∀ l : PackageListing, l.Fits → ∀ front, front <+: l.encode → front ≠ l.encode →
      ∃ fault, decode front = .error fault) ∧
    (∀ bs fault, decode bs = .error fault ↔ NoListing bs fault) ∧
    (∀ (count : UInt64) rest, rest.length < 8 * count.toNat →
      ∃ fault, decode (Wire.encodeWord count ++ rest) = .error fault) ∧
    (∀ (count : UInt64) (names : List String), names.length < count.toNat →
      (∀ name ∈ names, (Utf8.encode name).length < 2 ^ 64) → ∀ (length : UInt64) rest,
      (rest.length < length.toNat →
        decode (Wire.encodeWord count ++ (names.flatMap Wire.encodeText ++ (Wire.encodeWord length ++ rest))) =
          .error .textTooLong) ∧
      (∀ front back, rest = front ++ back → front.length = length.toNat → (∀ s, Utf8.encode s ≠ front) →
        ∃ fault, decode (Wire.encodeWord count ++
          (names.flatMap Wire.encodeText ++ (Wire.encodeWord length ++ rest))) = .error (.notText fault))) := by
  refine ⟨fun l h => decode_encode_of_fits h, fun bs l => of_decode, ?_, ?_, fun bs fault => decode_eq_error_iff,
    fun count rest => exists_error_of_count, ?_⟩
  · rintro ⟨names⟩ ⟨names'⟩ h h' hstart
    exact congrArg mk (exact_names.eq_of_start h h' hstart)
  · intro l h front hstart hne
    obtain ⟨fault, hfault⟩ := exact_names.error_of_cut h hstart hne
    exact ⟨fault, map_eq_error_iff.2 hfault⟩
  · intro count names hlength hfits length rest
    refine ⟨fun hlong => ?_, ?_⟩
    · exact decode_eq_error_iff.2 (.noName hlength hfits (.tooLong hlong))
    · rintro front back rfl hfront hnone
      cases hfault : Utf8.decode front with
      | ok s => exact absurd (Utf8.encode_of_decode hfault) (hnone s)
      | error fault => exact ⟨fault, decode_eq_error_iff.2 (.noName hlength hfits (.notText hfront hfault))⟩

/-- A listing of two names, one of them empty, with more bytes behind it and without its last byte, and the same
count before a name that is said to be longer than any file. -/
theorem listing_codec_cut_short :
    let l : PackageListing := ⟨["é", ""]⟩
    l.Fits ∧ decode (l.encode ++ [7]) = .ok l ∧ (∃ fault, decode (l.encode.take 25) = .error fault) ∧
      decode (Wire.encodeWord 2 ++ (["é"].flatMap Wire.encodeText ++ (Wire.encodeWord 0xFFFFFFFFFFFFFFFF ++ [65]))) =
        .error .textTooLong := by
  intro l
  have hfits : l.Fits := by
    refine ⟨?_, ?_⟩ <;> decide +kernel
  obtain ⟨hread, -, -, hcut, -, -, hname⟩ := listing_codec
  refine ⟨hfits, hread l hfits [7], hcut l hfits _ (List.take_prefix _ _) (by decide +kernel), ?_⟩
  exact (hname 2 ["é"] (by decide) (fun name h => hfits.2 name (by simp_all [l])) _ [65]).1 (by decide)

end TernBackend.PackageListing
