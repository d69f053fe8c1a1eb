import TernBackend.Proofs.Metadata.Admission
import TernBackend.Proofs.Path
import TernBackend.Proofs.Wire.Utf8
import TernBackend.Source.OutputFile

/-!
# Output files as names

The file of an output is never empty, since the name of a path is one of its pieces that mean something
(`file_ofPath?_ne_empty`). So an output can be named in the metadata just when neither its file nor its folder
holds a NUL, which is to say that its text holds none.
-/

namespace TernBackend

namespace OutputFile

open MetadataStore

theorem file_ofPath?_ne_empty (p : Option Path) : (ofPath? p).file ≠ "" := by
  cases p with
  | none => decide
  | some p =>
    simp only [ofPath?, Option.elim_some, ofPath]
    split
    · decide
    next name hname => exact Utf8.lossy_ne_empty (Path.name?_ne_nil hname)

theorem isText_text_iff (f : OutputFile) : IsText f.text ↔ IsText f.file ∧ IsText f.folder := by
  unfold text isAnonymous
  split
  next h =>
    have hempty : IsText "" := by
      simp [IsText]
    rw [eq_of_beq h, and_iff_left hempty]
  next h => simp [IsText, String.toList_append, and_comm]

theorem text_ne_empty {f : OutputFile} (h : f.file ≠ "") : f.text ≠ "" := by
  unfold text
  split
  · exact h
  · intro hempty
    have hlist := congrArg String.toList hempty
    simp [String.toList_append] at hlist

end OutputFile

end TernBackend
