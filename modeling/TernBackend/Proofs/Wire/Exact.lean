import TernBackend.Proofs.Wire.Field

/-!
# Exact decoders

A decoder is exact when it reads back whatever fits into its fields, and reads nothing but what fits and was
written (`Exact`). Then no written form is the start of another one (`Exact.eq_of_start`), and a form that is
cut short is refused (`Exact.error_of_cut`). Texts are exact, and so are lists of what is exact.

A list is refused just when one of its elements is, behind others that are read (`Exact.times_eq_error_iff`);
what stands in place of a text that is refused is said by `NoText`.
-/

namespace TernBackend.Wire

/-- The decoder reads back what fits into its fields, and reads only what fits and was written. -/
structure Exact {α : Type} (decode : Decoder α) (encode : α → Bytes) (Fits : α → Prop) : Prop where
  reads {a : α} : Fits a → Reads decode (encode a) a
  fits {bs rest : Bytes} {a : α} : decode bs = .ok (a, rest) → Fits a
  canonical : Canonical decode encode

/-! ## Starts of written forms -/

section

variable {α : Type} {decode : Decoder α} {encode : α → Bytes} {Fits : α → Prop} (h : Exact decode encode Fits)

include h

/-- No written form is the start of another one. -/
theorem Exact.eq_of_start {a b : α} (ha : Fits a) (hb : Fits b) (hstart : encode a <+: encode b) : a = b := by
  obtain ⟨rest, hrest⟩ := hstart
  have hread := h.reads hb []
  rw [List.append_nil, ← hrest, h.reads ha rest] at hread
  simp only [Except.ok.injEq, Prod.mk.injEq] at hread
  exact hread.1

theorem Exact.error_of_cut {a : α} (ha : Fits a) {front : Bytes} (hstart : front <+: encode a)
    (hne : front ≠ encode a) : ∃ fault, decode front = .error fault := by
  cases hread : decode front with
  | error fault => exact ⟨fault, rfl⟩
  | ok read =>
    obtain ⟨b, rest⟩ := read
    have hfront : encode b <+: front := ⟨rest, (h.canonical hread).symm⟩
    -- what is read is a start of the whole form, so it is the whole already
    obtain rfl := h.eq_of_start (h.fits hread) ha (hfront.trans hstart)
    exact absurd (hstart.eq_of_length_le hfront.length_le) hne

theorem Exact.fits_times {n : Nat} {bs rest : Bytes} {as : List α} (hread : decodeTimes decode n bs = .ok (as, rest)) :
    ∀ a ∈ as, Fits a := by
  induction n generalizing bs as with
  | zero =>
    cases hread
    simp
  | succ n ih =>
    obtain ⟨⟨a, bs'⟩, ha, hread⟩ := bind_eq_ok_iff.1 hread
    obtain ⟨⟨as', rest'⟩, has, hread⟩ := bind_eq_ok_iff.1 hread
    cases hread
    simp only [List.mem_cons, forall_eq_or_imp]
    exact ⟨h.fits ha, ih has⟩

/-- The first element that is refused decides; those before it are read. -/
theorem Exact.times_eq_error_iff {n : Nat} {bs : Bytes} {fault : Fault} :
    decodeTimes decode n bs = .error fault ↔ ∃ (as : List α) (rest : Bytes), as.length < n ∧
      (∀ a ∈ as, Fits a) ∧ bs = as.flatMap encode ++ rest ∧ decode rest = .error fault := by
  constructor
  · intro herror
    induction n generalizing bs with
    | zero => cases herror
    | succ n ih =>
      rcases bind_eq_error_iff.1 herror with hfirst | ⟨⟨a, later⟩, ha, herror⟩
      · exact ⟨[], bs, by simp, by simp, by simp, hfirst⟩
      · rcases bind_eq_error_iff.1 herror with hlater | ⟨x, -, herror⟩
        · obtain ⟨as, rest, hlength, hfits, rfl, hrest⟩ := ih hlater
          refine ⟨a :: as, rest, by simpa using hlength, ?_, by simp [h.canonical ha], hrest⟩
          simp only [List.mem_cons, forall_eq_or_imp]
          exact ⟨h.fits ha, hfits⟩
        · cases herror
  · rintro ⟨as, rest, hlength, hfits, rfl, hrest⟩
    induction as generalizing n with
    | nil =>
      obtain ⟨n, rfl⟩ := Nat.exists_eq_add_one.2 hlength
      exact bind_eq_error_iff.2 (.inl hrest)
    | cons a as ih =>
      obtain ⟨n, rfl⟩ := Nat.exists_eq_add_one.2 (Nat.zero_lt_of_lt hlength)
      simp only [List.mem_cons, forall_eq_or_imp] at hfits
      have ha := h.reads hfits.1 (as.flatMap encode ++ rest)
      rw [← List.append_assoc, ← List.flatMap_cons] at ha
      refine bind_eq_error_iff.2 (.inr ⟨_, ha, bind_eq_error_iff.2 (.inl ?_)⟩)
      exact ih (by simpa using hlength) hfits.2

/-- A list fits when its count does and all its elements do. -/
theorem Exact.list : Exact (decodeList decode) (encodeList encode)
    fun as => as.length < 2 ^ 64 ∧ ∀ a ∈ as, Fits a where
  reads hfits := reads_list hfits.1 fun a ha => h.reads (hfits.2 a ha)
  fits hread := by
    obtain ⟨⟨count, bs⟩, -, htimes⟩ := bind_eq_ok_iff.1 hread
    have hlength := (canonical_times h.canonical htimes).1
    exact ⟨hlength ▸ count.toNat_lt, h.fits_times htimes⟩
  canonical := canonical_list h.canonical

end

/-! ## Numbers and texts -/

theorem decodeWord_eq_error_iff {bs : Bytes} {fault : Fault} :
    decodeWord bs = .error fault ↔ bs.length < 8 ∧ fault = .endOfInput := by
  unfold decodeWord
  split
  next front rest hcut =>
    obtain ⟨rfl, hfront⟩ := cut?_eq_some_iff.1 hcut
    simp [hfront]
  next hcut =>
    simp [cut?_eq_none_iff.1 hcut, eq_comm]

/-- Behind a length, a text is the bytes that the length counts. -/
theorem decodeText_encodeWord (length : UInt64) (bs : Bytes) :
    decodeText (encodeWord length ++ bs) =
      match cut? length.toNat bs with
      | none => .error .textTooLong
      | some (front, rest) =>
        match Utf8.decode front with
        | .ok s => .ok (s, rest)
        | .error fault => .error (.notText fault) := by
  rw [decodeText, reads_word length bs]
  rfl

theorem fits_text {bs rest : Bytes} {s : String} (h : decodeText bs = .ok (s, rest)) :
    (Utf8.encode s).length < 2 ^ 64 := by
  obtain ⟨⟨length, bs'⟩, hword, -⟩ := bind_eq_ok_iff.1 h
  obtain rfl := canonical_word hword
  rw [decodeText_encodeWord] at h
  split at h
  next => cases h
  next front rest' hcut =>
    obtain ⟨rfl, hfront⟩ := cut?_eq_some_iff.1 hcut
    split at h
    next s' hs =>
      cases h
      rw [Utf8.encode_of_decode hs, hfront]
      exact length.toNat_lt
    next => cases h

theorem exact_text : Exact decodeText encodeText fun s => (Utf8.encode s).length < 2 ^ 64 where
  reads := reads_text
  fits := fits_text
  canonical := canonical_text

/-- Bytes at whose start no text can be read, and why. -/
inductive NoText : Bytes → Fault → Prop
  /-- The bytes end within the length. -/
  | noLength {bs : Bytes} : bs.length < 8 → NoText bs .endOfInput
  /-- The length reaches past the end of the bytes. -/
  | tooLong {length : UInt64} {rest : Bytes} :
    rest.length < length.toNat → NoText (encodeWord length ++ rest) .textTooLong
  /-- The bytes that the length counts are there, but they are not those of a text. -/
  | notText {length : UInt64} {front rest : Bytes} {fault : Utf8.Fault} : front.length = length.toNat →
    Utf8.decode front = .error fault → NoText (encodeWord length ++ (front ++ rest)) (.notText fault)

theorem decodeText_eq_error_iff {bs : Bytes} {fault : Fault} :
    decodeText bs = .error fault ↔ NoText bs fault := by
  constructor
  · intro h
    cases hword : decodeWord bs with
    | error fault' =>
      obtain ⟨hshort, rfl⟩ := decodeWord_eq_error_iff.1 hword
      rw [decodeText, hword] at h
      cases h
      exact .noLength hshort
    | ok read =>
      obtain ⟨length, rest⟩ := read
      obtain rfl := canonical_word hword
      rw [decodeText_encodeWord] at h
      split at h
      next hcut =>
        cases h
        exact .tooLong (cut?_eq_none_iff.1 hcut)
      next front rest' hcut =>
        obtain ⟨rfl, hfront⟩ := cut?_eq_some_iff.1 hcut
        split at h
        next => cases h
        next fault' hfault =>
          cases h
          exact .notText hfront hfault
  · rintro (hshort | hlong | ⟨hfront, hfault⟩)
    · rw [decodeText, decodeWord_eq_error_iff.2 ⟨hshort, rfl⟩]
      rfl
    · rw [decodeText_encodeWord, cut?_eq_none_iff.2 hlong]
    · rw [decodeText_encodeWord, cut?_eq_some_iff.2 ⟨rfl, hfront⟩]
      simp only [hfault]

end TernBackend.Wire
