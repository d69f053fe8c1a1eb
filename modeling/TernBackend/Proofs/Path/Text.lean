import TernBackend.Proofs.Path
import TernBackend.Proofs.Wire.Utf8

/-!
# Paths that are texts

No byte of a longer character is a slash, so the pieces of a text are texts (`Path.isText_of_mem_split`), and what is
joined of them is one (`Path.isText_join`). So what a path that is a text is made of, such as its name
(`Path.isText_name`), is shown as it is.
-/

namespace TernBackend

open Utf8

namespace Path

/-! ## Slashes in texts -/

theorem slash_mem_encode_iff {s : String} : slash ∈ encode s ↔ '/' ∈ s.toList := by
  rw [encode, List.mem_flatMap]
  constructor
  · rintro ⟨c, hc, hslash⟩
    have hnat := eq_of_mem_encodeChar hslash (by decide)
    have hchar : c = '/' := by
      rw [← Char.ofNat_toNat c, hnat]
      decide
    exact hchar ▸ hc
  · exact fun h => ⟨'/', h, by decide⟩

/-- A text with slashes, put together of texts, is put together of their bytes. -/
theorem encode_intercalate (pieces : List (List Char)) :
    encode (.ofList (['/'].intercalate pieces)) =
      [slash].intercalate (pieces.map fun piece => encode (.ofList piece)) := by
  induction pieces with
  | nil => rfl
  | cons piece pieces ih =>
    cases pieces with
    | nil => simp
    | cons second pieces =>
      have hslash : encode (.ofList ['/']) = [slash] := by
        decide
      rw [List.intercalate_cons_cons, String.ofList_append, String.ofList_append, encode_append, encode_append, hslash,
        ih]
      simp only [List.map_cons, List.intercalate_cons_cons]

/-- The pieces of a text are the bytes of its pieces. -/
theorem splitOn_encode (s : String) :
    (encode s).splitOn slash = (s.toList.splitOn '/').map fun piece => encode (.ofList piece) := by
  have hjoined : encode s = [slash].intercalate ((s.toList.splitOn '/').map fun piece => encode (.ofList piece)) := by
    rw [← encode_intercalate, List.intercalate_splitOn, String.ofList_toList]
  rw [hjoined, List.splitOn_intercalate]
  · intro bs hbs
    obtain ⟨piece, hpiece, rfl⟩ := List.mem_map.1 hbs
    rw [slash_mem_encode_iff, String.toList_ofList]
    exact notMem_of_mem_splitOn hpiece
  · simp [List.splitOn_ne_nil]

theorem isText_of_mem_splitOn {s : String} {piece : Bytes} (h : piece ∈ (encode s).splitOn slash) : IsText piece := by
  rw [splitOn_encode] at h
  obtain ⟨cs, -, rfl⟩ := List.mem_map.1 h
  exact isText_encode _

/-! ## Pieces and names of texts -/

/-- The pieces behind the start of a text are texts. -/
theorem isText_of_mem_split {s : String} {piece : Bytes} (h : piece ∈ (split (encode s)).2) : IsText piece := by
  have hpieces : ∀ piece ∈ (encode s).splitOn slash, IsText piece := fun _ => isText_of_mem_splitOn
  unfold split ofPieces at h
  split at h
  next => cases h
  next => cases h
  next hsplit => exact hpieces piece (hsplit ▸ List.mem_cons_of_mem _ h)
  next first pieces _ _ hsplit =>
    rw [hsplit] at hpieces
    split at h
    next =>
      split at h
      next => cases h
      next =>
        rcases List.mem_cons.1 h with rfl | h
        · exact ⟨"", rfl⟩
        · exact hpieces piece (List.mem_cons_of_mem _ h)
    next => exact hpieces piece h

theorem isText_name {s : String} {name : Bytes} (h : (ofText s).name? = some name) : IsText name :=
  isText_of_mem_split (mem_split_of_name? h)

theorem isText_slash : IsText [slash] := ⟨"/", by decide⟩

theorem Start.isText_bytes : ∀ start : Start, IsText start.bytes
  | .root => isText_slash
  | .current => ⟨".", by decide⟩
  | .plain => ⟨"", rfl⟩

theorem isText_join (start : Start) {pieces : List Bytes} (h : ∀ piece ∈ pieces, IsText piece) :
    IsText (join start pieces) := by
  refine start.isText_bytes.append ?_
  induction pieces with
  | nil => exact ⟨"", rfl⟩
  | cons piece pieces ih =>
    cases pieces with
    | nil =>
      rw [List.intercalate_singleton]
      exact h piece List.mem_cons_self
    | cons second pieces =>
      rw [List.intercalate_cons_cons]
      exact ((h piece List.mem_cons_self).append isText_slash).append
        (ih fun piece hpiece => h piece (List.mem_cons_of_mem _ hpiece))

end Path
end TernBackend
