import TernBackend.Proofs.Path.Text
import TernBackend.Source.OutputFile

/-!
# Splitting output paths

An output path with a name is split into that name and a folder, which is the joined pieces before the name or, for a
bare name, `.`, both as they are shown (`OutputFile.exists_folder`). If the path is a text, the two are a path with the
same components when they are written out, except for the `.` before a bare name, and that path is split into the same
two (`OutputFile.ofPath_text`). So what is written tells one output from another (`OutputFile.ofPath_splits`).
-/

namespace TernBackend

namespace OutputFile

open TernBackend.Path

variable {p : Path} {name : Bytes}

/-- The folder of a path with a name, as joined pieces with nothing void at the end, which are pieces of the path. They
mean what the path means without its name; only the folder of a bare name is `.`. -/
theorem exists_folder (h : p.name? = some name) :
    ∃ start pieces, Fits start pieces ∧ dropVoidEnd pieces = pieces ∧ join start pieces ≠ [] ∧
      (∀ piece ∈ pieces, piece ∈ (split p.bytes).2) ∧
      ofPath p = ⟨Utf8.lossy name, Utf8.lossy (join start pieces)⟩ ∧
      start.components ++ meant pieces ++ [.normal name] =
        if p.components = [.normal name] then [.current, .normal name] else p.components := by
  obtain ⟨before, hend, -, hcomponents⟩ := exists_of_name? h
  have hbegin : dropVoidEnd before <+: (split p.bytes).2 :=
    (List.rdropWhile_prefix _ _).trans ((List.prefix_append before [name]).trans
      (hend ▸ List.rdropWhile_prefix _ (split p.bytes).2))
  have hfits : Fits (split p.bytes).1 (dropVoidEnd before) := by
    have hall := fits_split p.bytes
    rw [hend] at hall
    exact (hall.of_isPrefix (List.prefix_append _ _)).of_isPrefix (List.rdropWhile_prefix _ _)
  have hbare : p.components = [.normal name] ↔ join (split p.bytes).1 (dropVoidEnd before) = [] := by
    rw [hcomponents, List.append_left_eq_self, hfits.join_eq_nil_iff, meant_dropVoidEnd]
  -- before a bare name nothing is left, and then the folder is `.`
  by_cases hjoin : join (split p.bytes).1 (dropVoidEnd before) = []
  · refine ⟨.current, [], ⟨nofun, nofun, nofun⟩, rfl, List.cons_ne_nil _ _, nofun, ?_, ?_⟩
    · rw [ofPath, h, parent_eq hend, hjoin]
      rfl
    · rw [if_pos (hbare.2 hjoin)]
      rfl
  · refine ⟨_, _, hfits, List.rdropWhile_idempotent isVoid before, hjoin, fun _ hpiece => hbegin.subset hpiece, ?_, ?_⟩
    · simp only [ofPath, h, parent_eq hend]
      rw [if_neg hjoin]
    · rw [if_neg (mt hbare.1 hjoin), hcomponents, meant_dropVoidEnd]

theorem ofPath_of_name?_eq_none (h : p.name? = none) : ofPath p = anonymous := by
  rw [ofPath, h]

theorem file_ofPath (h : p.name? = some name) : (ofPath p).file = Utf8.lossy name := by
  rw [ofPath, h]

theorem folder_ofPath_ne_empty (h : p.name? = some name) : (ofPath p).folder ≠ "" := by
  obtain ⟨start, pieces, -, -, hjoin, -, hsplit, -⟩ := exists_folder h
  rw [hsplit]
  exact Utf8.lossy_ne_empty hjoin

theorem ofPath_eq_anonymous_iff : ofPath p = anonymous ↔ p.name? = none := by
  constructor
  · intro hanonymous
    cases hname : p.name? with
    | none => rfl
    | some name => exact absurd (congrArg folder hanonymous) (folder_ofPath_ne_empty hname)
  · exact ofPath_of_name?_eq_none

theorem text_ofPath (h : p.name? = some name) :
    (ofPath p).text = (ofPath p).folder ++ "/" ++ Utf8.lossy name := by
  rw [text, isAnonymous, if_neg (by simpa using folder_ofPath_ne_empty h), file_ofPath h]

theorem text_ofPath_ne (h : p.name? = some name) : (ofPath p).text ≠ "-" := by
  rw [text_ofPath h]
  intro heq
  have hmem : '/' ∈ "-".toList := by
    rw [← heq]
    simp [String.toList_append]
  exact absurd hmem (by decide)

/-! ## Paths that are texts -/

variable {s : String}

/-- What is written is a path that means the same and is split into the same. -/
theorem ofPath_text (h : (Path.ofText s).name? = some name) :
    (Path.ofText (ofPath (.ofText s)).text).components =
        (if (Path.ofText s).components = [.normal name] then [.current, .normal name]
          else (Path.ofText s).components) ∧
      ofPath (.ofText (ofPath (.ofText s)).text) = ofPath (.ofText s) := by
  obtain ⟨start, pieces, hfits, hend, hjoin, hpieces, hsplit, hcomponents⟩ := exists_folder h
  obtain ⟨-, -, hname, -⟩ := exists_of_name? h
  have hfolder : Utf8.IsText (join start pieces) :=
    isText_join start fun piece hpiece => isText_of_mem_split (hpieces piece hpiece)
  have hbytes : (Path.ofText (ofPath (.ofText s)).text).bytes = join start pieces ++ slash :: name := by
    have hslash : Utf8.encode "/" = [slash] := by
      decide
    rw [Path.ofText, text_ofPath h, hsplit, Utf8.encode_append, Utf8.encode_append, hfolder.encode_lossy,
      (isText_name h).encode_lossy, hslash, List.append_assoc, List.singleton_append]
  obtain ⟨hmeant, hname?, hparent⟩ := hfits.of_bytes hjoin hname hbytes
  refine ⟨hmeant.trans hcomponents, ?_⟩
  rw [hend] at hparent
  rw [ofPath, hname?, hparent, hsplit]
  simp only [OutputFile.mk.injEq, true_and]
  rw [if_neg hjoin]

/-- **Splitting an output path keeps its meaning.** The path is a text. It gives the placeholder just if it is empty,
the root or the current directory, or goes up at the end. Otherwise the file is the last component of the path and has
no slash in it, neither file nor folder is empty, and what is written for them is not the dash of the placeholder. Read
as a path, it has the components of the path, with a `.` before a name that is the only one, and it is split into the
same file and folder. So two paths for which the same is written are split into the same. -/
theorem ofPath_splits (s : String) :
    let p : Path := .ofText s
    (ofPath p = anonymous ↔
      s = "" ∨ p.components = [.root] ∨ p.components = [.current] ∨ p.components.getLast? = some .parent) ∧
    (ofPath p ≠ anonymous → ∃ name : String, p.components.getLast? = some (.normal (Utf8.encode name)) ∧
      (ofPath p).file = name ∧ name ≠ "" ∧ '/' ∉ name.toList ∧ (ofPath p).folder ≠ "" ∧ (ofPath p).text ≠ "-" ∧
      (Path.ofText (ofPath p).text).components =
        (if p.components = [.normal (Utf8.encode name)] then [.current, .normal (Utf8.encode name)]
          else p.components) ∧
      ofPath (.ofText (ofPath p).text) = ofPath p) ∧
    ∀ t : String, (ofPath p).text = (ofPath (.ofText t)).text → ofPath p = ofPath (.ofText t) := by
  intro p
  refine ⟨?_, fun hnamed => ?_, fun t htext => ?_⟩
  · have hempty : p.bytes = [] ↔ s = "" := by
      rw [← Utf8.encode_eq_nil_iff]
      rfl
    rw [ofPath_eq_anonymous_iff, name?_eq_none_iff, hempty]
  · rw [Ne, ofPath_eq_anonymous_iff] at hnamed
    obtain ⟨bytes, h⟩ := Option.ne_none_iff_exists'.1 hnamed
    obtain ⟨-, -, hname, -⟩ := exists_of_name? h
    obtain ⟨hcomponents, hsame⟩ := ofPath_text h
    obtain ⟨name, rfl⟩ := isText_name h
    have hfile : (ofPath p).file = name := by
      rw [file_ofPath h, Utf8.lossy_encode]
    refine ⟨name, name?_eq_some_iff.1 h, hfile, ?_, ?_, folder_ofPath_ne_empty h, text_ofPath_ne h, hcomponents, hsame⟩
    · exact mt Utf8.encode_eq_nil_iff.2 hname.piece.ne_nil
    · exact mt slash_mem_encode_iff.2 hname.no_slash
  -- only the placeholder is written as a dash, so both have a name or neither has
  · cases hp : p.name? with
    | none =>
      cases hq : (Path.ofText t).name? with
      | none => rw [ofPath_of_name?_eq_none hp, ofPath_of_name?_eq_none hq]
      | some name =>
        rw [ofPath_of_name?_eq_none hp] at htext
        exact absurd htext.symm (text_ofPath_ne hq)
    | some name =>
      cases hq : (Path.ofText t).name? with
      | none =>
        rw [ofPath_of_name?_eq_none hq] at htext
        exact absurd htext (text_ofPath_ne hp)
      | some name' => rw [← (ofPath_text hp).2, htext, (ofPath_text hq).2]

/-- Two ways to write one bare name, and a path that goes up at the end. -/
theorem ofPath_splits_bare :
    let p : Path := .ofText "a.o//./"
    let q : Path := .ofText "./a.o"
    let name : Path.Component := .normal (Utf8.encode "a.o")
    p.components = [name] ∧ ofPath p ≠ anonymous ∧ (ofPath p).text = (ofPath q).text ∧ ofPath p = ofPath q ∧
      (Path.ofText (ofPath p).text).components = [.current, name] ∧ ofPath (.ofText (ofPath p).text) = ofPath p ∧
      ofPath (.ofText "//out/..") = anonymous := by
  intro p q name
  have hbare : p.components = [name] := by
    decide +kernel
  have hnamed : ofPath p ≠ anonymous := by
    decide +kernel
  have htext : (ofPath p).text = (ofPath q).text := by
    decide +kernel
  obtain ⟨-, hmeaning, hsame⟩ := ofPath_splits "a.o//./"
  obtain ⟨file, hlast, -, -, -, -, -, hcomponents, hagain⟩ := hmeaning hnamed
  rw [hbare, List.getLast?_singleton, Option.some.injEq] at hlast
  rw [hbare, ← hlast, if_pos rfl] at hcomponents
  refine ⟨hbare, hnamed, htext, hsame "./a.o" htext, hcomponents, hagain, (ofPath_splits _).1.2 ?_⟩
  exact .inr (.inr (.inr (by decide +kernel)))

end OutputFile

end TernBackend
