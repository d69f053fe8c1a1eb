import TernBackend.Proofs.Target.Layout
import TernBackend.Proofs.Text.Pieces
import TernBackend.Target.Triple

/-!
# What a triple says

A triple is read from the first four pieces of its text, none of which may be empty, and it is written as just these
pieces (`parse_eq_ok_iff`, `toList_text`). So a text of at most four pieces is given back as it was, and every proper
triple is read from what it is written as. A text of more pieces is read too, but the pieces behind the fourth are
lost (`parse_reads`, `parse_fifth_piece`).

The layout of a target comes from a layout text that depends on no more than the architecture, on whether the vendor
is Apple and on whether the operating system is Windows (`layoutText?_congr`). Such a text begins with the byte order
and the mangling, which say nothing about pointers, and what follows them gives pointers the width that the name of the
architecture tells (`exists_pointsAt_of_layoutText?`). So the layout agrees with the triple (`ofTriple_agrees`).
-/

namespace TernBackend

namespace TargetTriple

/-! ## Reading and writing -/

/-- The parts of a triple, in order. -/
def parts (t : TargetTriple) : List String := [t.arch, t.vendor, t.os] ++ t.env.toList

/-- No part is empty, and none holds the mark that stands between the parts. -/
def IsProper (t : TargetTriple) : Prop := ∀ part ∈ t.parts, part ≠ "" ∧ '-' ∉ part.toList

instance (t : TargetTriple) : Decidable t.IsProper :=
  inferInstanceAs (Decidable (∀ part ∈ t.parts, part ≠ "" ∧ '-' ∉ part.toList))

theorem length_parts (t : TargetTriple) : 3 ≤ t.parts.length ∧ t.parts.length ≤ 4 := by
  obtain ⟨arch, vendor, os, _ | env⟩ := t <;> simp [parts]

theorem toList_text (t : TargetTriple) : t.text.toList = ['-'].intercalate (t.parts.map String.toList) := by
  obtain ⟨arch, vendor, os, _ | env⟩ := t <;> simp [text, parts, String.toList_append, List.intercalate]

theorem ofParts_eq_some_iff {t : TargetTriple} : ∀ {pieces : List (List Char)},
    ofParts pieces = some t ↔ 3 ≤ pieces.length ∧ [] ∉ pieces.take 4 ∧ pieces.take 4 = t.parts.map String.toList
  | [] | [_] | [_, _] => by simp [ofParts]
  | arch :: vendor :: os :: more => by
    have htriple : (⟨.ofList arch, .ofList vendor, .ofList os, more.head?.map String.ofList⟩ : TargetTriple) = t ↔
        arch :: vendor :: os :: more.take 1 = t.parts.map String.toList := by
      obtain ⟨arch', vendor', os', env'⟩ := t
      cases more <;> cases env' <;> simp [parts, String.ext_iff]
    have htake : (arch :: vendor :: os :: more).take 4 = arch :: vendor :: os :: more.take 1 := rfl
    rw [ofParts, htake, ← htriple]
    split
    next hempty => simp [hempty]
    next hempty => simp [hempty]

theorem parse_eq_ok_iff {text : String} {t : TargetTriple} :
    parse text = .ok t ↔ 3 ≤ (text.toList.splitOn '-').length ∧ [] ∉ (text.toList.splitOn '-').take 4 ∧
      (text.toList.splitOn '-').take 4 = t.parts.map String.toList := by
  rw [← ofParts_eq_some_iff, parse]
  cases ofParts (text.toList.splitOn '-') <;> simp

/-- Any three pieces or more are the parts of some triple, as far as the fourth. -/
theorem exists_parts_eq : ∀ {pieces : List (List Char)}, 3 ≤ pieces.length →
    ∃ t : TargetTriple, pieces.take 4 = t.parts.map String.toList
  | [arch, vendor, os], _ => ⟨⟨.ofList arch, .ofList vendor, .ofList os, none⟩, by simp [parts]⟩
  | arch :: vendor :: os :: env :: _, _ =>
    ⟨⟨.ofList arch, .ofList vendor, .ofList os, some (.ofList env)⟩, by simp [parts]⟩

theorem exists_parse_iff {text : String} :
    (∃ t, parse text = .ok t) ↔ 3 ≤ (text.toList.splitOn '-').length ∧ [] ∉ (text.toList.splitOn '-').take 4 := by
  constructor
  · rintro ⟨t, h⟩
    obtain ⟨hlength, hempty, -⟩ := parse_eq_ok_iff.1 h
    exact ⟨hlength, hempty⟩
  · rintro ⟨hlength, hempty⟩
    obtain ⟨t, ht⟩ := exists_parts_eq hlength
    exact ⟨t, parse_eq_ok_iff.2 ⟨hlength, hempty, ht⟩⟩

theorem eq_of_parse_eq_error {text : String} {e : LayoutError} (h : parse text = .error e) :
    e = ⟨text, .malformedTriple⟩ := by
  rw [parse] at h
  split at h
  · cases h
  · cases h
    rfl

/-- The pieces of what a proper triple is written as are its parts. -/
theorem splitOn_text {t : TargetTriple} (h : t.IsProper) : t.text.toList.splitOn '-' = t.parts.map String.toList := by
  have hmark : ∀ piece ∈ t.parts.map String.toList, '-' ∉ piece := by
    intro piece hpiece
    obtain ⟨part, hpart, rfl⟩ := List.mem_map.1 hpiece
    exact (h part hpart).2
  have hparts : t.parts.map String.toList ≠ [] := by simp [parts]
  rw [toList_text, List.splitOn_intercalate '-' hmark hparts]

theorem parse_text {t : TargetTriple} (h : t.IsProper) : parse t.text = .ok t := by
  obtain ⟨hthree, hfour⟩ := t.length_parts
  have htake : (t.parts.map String.toList).take 4 = t.parts.map String.toList :=
    List.take_of_length_le (by rwa [List.length_map])
  rw [parse_eq_ok_iff, splitOn_text h, htake, List.length_map]
  refine ⟨hthree, fun hempty => ?_, rfl⟩
  obtain ⟨part, hpart, hnil⟩ := List.mem_map.1 hempty
  exact (h part hpart).1 (String.toList_eq_nil_iff.1 hnil)

/-- What is read from a text is a proper triple. -/
theorem isProper_of_parse {text : String} {t : TargetTriple} (h : parse text = .ok t) : t.IsProper := by
  obtain ⟨-, hempty, hparts⟩ := parse_eq_ok_iff.1 h
  intro part hpart
  have hpiece : part.toList ∈ (text.toList.splitOn '-').take 4 := hparts ▸ List.mem_map_of_mem hpart
  refine ⟨?_, notMem_of_mem_splitOn (List.mem_of_mem_take hpiece)⟩
  rintro rfl
  exact hempty hpiece

/-- The triple that is read from a text gives the text back just if no piece stands behind the fourth. -/
theorem text_eq_iff {text : String} {t : TargetTriple} (h : parse text = .ok t) :
    t.text = text ↔ (text.toList.splitOn '-').length ≤ 4 := by
  -- the first four pieces are the parts; they are all of the text unless there are more
  have hparts := (parse_eq_ok_iff.1 h).2.2
  constructor
  · intro htext
    rw [← htext, splitOn_text (isProper_of_parse h), List.length_map]
    exact t.length_parts.2
  · intro hlength
    rw [List.take_of_length_le hlength] at hparts
    rw [← String.toList_inj, toList_text, ← hparts, List.intercalate_splitOn]

/-- **What is read as a triple.** A text of at most four pieces is read just if it has three or four and none is
empty, and the triple gives the text back. A text of more pieces is read just if none of the first four is empty, and
the triple gives these four back and not the text. Every other text is refused by name. A proper triple is read from
what it is written as. -/
theorem parse_reads (text : String) :
    let pieces := text.toList.splitOn '-'
    (pieces.length ≤ 4 →
      ((∃ t, parse text = .ok t) ↔ 3 ≤ pieces.length ∧ [] ∉ pieces) ∧ ∀ t, parse text = .ok t → t.text = text) ∧
    (4 < pieces.length →
      ((∃ t, parse text = .ok t) ↔ [] ∉ pieces.take 4) ∧
        ∀ t, parse text = .ok t → t.text.toList = ['-'].intercalate (pieces.take 4) ∧ t.text ≠ text) ∧
    (∀ e, parse text = .error e → e = ⟨text, .malformedTriple⟩) ∧
    ∀ t : TargetTriple, t.IsProper → parse t.text = .ok t := by
  intro pieces
  refine ⟨fun hlength => ⟨?_, fun t h => (text_eq_iff h).2 hlength⟩, fun hlength => ⟨?_, fun t h => ⟨?_, ?_⟩⟩,
    fun _ => eq_of_parse_eq_error, fun _ => parse_text⟩
  · rw [exists_parse_iff, List.take_of_length_le hlength]
  · rw [exists_parse_iff, and_iff_right (show 3 ≤ pieces.length by omega)]
  · rw [toList_text, (parse_eq_ok_iff.1 h).2.2]
  · rw [Ne, text_eq_iff h]
    exact Nat.not_le.2 hlength

/-- A fifth piece does not keep a text from being read, and it is lost. -/
theorem parse_fifth_piece :
    let text := "x86_64-unknown-linux-gnu-extra"
    let t : TargetTriple := ⟨"x86_64", "unknown", "linux", some "gnu"⟩
    (text.toList.splitOn '-').length = 5 ∧ parse text = .ok t ∧ t.text ≠ text := by
  decide +kernel

/-- Nor does a fifth piece that is empty. A triple with the four before it is given back. -/
theorem parse_reads_surplus :
    let text := "arm64-apple-ios-macabi-"
    let t : TargetTriple := ⟨"arm64", "apple", "ios", some "macabi"⟩
    4 < (text.toList.splitOn '-').length ∧ (∃ t', parse text = .ok t') ∧ t.IsProper ∧ parse t.text = .ok t := by
  intro text t
  have hlength : 4 < (text.toList.splitOn '-').length := by
    decide +kernel
  have hempty : [] ∉ (text.toList.splitOn '-').take 4 := by
    decide +kernel
  have hproper : t.IsProper := by
    decide +kernel
  obtain ⟨-, hmany, -, hwritten⟩ := parse_reads text
  exact ⟨hlength, (hmany hlength).1.2 hempty, hproper, hwritten t hproper⟩

end TargetTriple

/-! ## What layout texts say about pointers -/

namespace DataLayout

open LayoutSetting

/-- A layout is little-endian and gives pointers one width, as their size and as both their alignments. -/
structure PointsAt (layout : DataLayout) (width : UInt32) : Prop where
  littleEndian : layout.littleEndian = true
  size : layout.size .ptr = width.toUInt64
  alignment : layout.alignment .ptr = ⟨width, width⟩

/-- Settings make such a layout: what they say last about these things, or else the default. -/
def SaysWidth (made : List LayoutSetting) (width : UInt32) : Prop :=
  lastSaid littleEndian? made true = true ∧ lastSaid pointerSize? made 64 = width ∧
    lastSaid (alignment? .ptr) made ⟨64, 64⟩ = ⟨width, width⟩

instance (made : List LayoutSetting) (width : UInt32) : Decidable (SaysWidth made width) :=
  inferInstanceAs (Decidable (_ ∧ _))

theorem exists_pointsAt {text : String} {made : List LayoutSetting} {width : UInt32} (hmade : IsMade text made)
    (hsaid : SaysWidth made width) : ∃ layout, parse text = .ok layout ∧ layout.PointsAt width := by
  obtain ⟨hendian, hsize, halignment⟩ := hsaid
  refine ⟨_, parse_eq_ok_iff.2 ⟨made, hmade, rfl⟩, ?_, ?_, ?_⟩
  · rw [littleEndian_foldl_set]
    exact hendian
  · rw [size_ptr_foldl_set]
    exact congrArg UInt32.toUInt64 hsize
  · rw [alignment_foldl_set_standard]
    exact halignment

/-- Whether a text goes on with specifications that make such a layout. -/
def goesOn (rest : String) (width : UInt32) : Bool :=
  match rest.toList with
  | '-' :: cs =>
    match (cs.splitOn '-').mapM ofPiece with
    | .ok made => decide (SaysWidth made width)
    | .error _ => false
  | _ => false

theorem exists_of_goesOn {rest : String} {width : UInt32} (h : goesOn rest width = true) :
    ∃ cs made, rest.toList = '-' :: cs ∧ (cs.splitOn '-').mapM ofPiece = .ok made ∧ SaysWidth made width := by
  unfold goesOn at h
  split at h
  next cs hrest =>
    split at h
    next made hmade => exact ⟨cs, made, hrest, hmade, of_decide_eq_true h⟩
    next => cases h
  next => cases h

/-- The ways in which symbols are mangled. -/
def manglings : List String := ["m:o", "m:w", "m:e"]

theorem ignored_of_mem_manglings :
    ∀ mangling ∈ manglings, '-' ∉ mangling.toList ∧ ofPiece mangling.toList = .ok .ignored := by
  decide +kernel

/-- Neither the byte order nor a mangling says anything about pointers, so what follows them counts. -/
theorem exists_pointsAt_of_goesOn {mangling rest : String} {width : UInt32} (hmangling : mangling ∈ manglings)
    (h : goesOn rest width = true) :
    ∃ layout, parse ("e-" ++ mangling ++ rest) = .ok layout ∧ layout.PointsAt width := by
  obtain ⟨cs, made, hrest, hmade, hsaid⟩ := exists_of_goesOn h
  obtain ⟨hmark, hignored⟩ := ignored_of_mem_manglings mangling hmangling
  have htext : ("e-" ++ mangling ++ rest).toList = ['e'] ++ '-' :: (mangling.toList ++ '-' :: cs) := by
    simp [String.toList_append, hrest]
  have hpieces : ("e-" ++ mangling ++ rest).toList.splitOn '-' = ['e'] :: mangling.toList :: cs.splitOn '-' := by
    rw [htext, List.splitOn_append_cons_self_of_not_mem (by decide), List.splitOn_append_cons_self_of_not_mem hmark]
  have hsettings : settings ("e-" ++ mangling ++ rest).toList = .ok (.byteOrder true :: .ignored :: made) := by
    rw [settings, hpieces, if_neg (by rw [htext]; simp), mapM_eq_ok_iff]
    exact .cons rfl (.cons hignored (mapM_eq_ok_iff.1 hmade))
  refine exists_pointsAt (settings_eq_ok_iff.1 hsettings) ?_
  simp only [SaysWidth, lastSaid_cons]
  exact hsaid

end DataLayout

/-! ## The layout text of a triple -/

namespace TargetTriple

open DataLayout

theorem isApple_iff {t : TargetTriple} : t.isApple = true ↔ t.vendor = "apple" := beq_iff_eq

theorem isWasm_iff {t : TargetTriple} : t.isWasm = true ↔ "wasm".toList <+: t.arch.toList :=
  List.isPrefixOf_iff_prefix

theorem mangling_mem (t : TargetTriple) : t.mangling ∈ manglings := by
  unfold mangling
  split
  · decide
  · split <;> decide

theorem pointerWidth_of_mem {t : TargetTriple} (harch : t.arch ∈ ["x86_64", "aarch64", "arm64"]) :
    t.pointerWidth = 64 := by
  have hwide : ∀ arch ∈ ["x86_64", "aarch64", "arm64"],
      ¬ (['3', '2'].isSuffixOf arch.toList ∨ arch = "i386" ∨ arch = "i686") := by
    decide +kernel
  exact if_neg (hwide t.arch harch)

theorem pointerWidth_cases (t : TargetTriple) : t.pointerWidth = 32 ∨ t.pointerWidth = 64 := by
  unfold pointerWidth
  split
  · exact .inl rfl
  · exact .inr rfl

/-- The layout text of every architecture that is known is read, and it gives pointers the width that the name of the
architecture tells. -/
theorem exists_pointsAt_of_layoutText? {t : TargetTriple} {text : String} (h : t.layoutText? = some text) :
    ∃ layout, DataLayout.parse text = .ok layout ∧ layout.PointsAt t.pointerWidth := by
  -- five texts, each a fixed one behind the mangling
  unfold layoutText? at h
  split at h
  next harch =>
    rw [pointerWidth_of_mem (by simp [harch]), ← Option.some.inj h]
    exact exists_pointsAt_of_goesOn t.mangling_mem (by decide +kernel)
  next =>
  split at h
  next harch =>
    rw [pointerWidth_of_mem (by simp [harch.1]), ← Option.some.inj h]
    exact exists_pointsAt_of_goesOn t.mangling_mem (by decide +kernel)
  next =>
  split at h
  next harch =>
    rw [pointerWidth_of_mem (by simp [harch]), ← Option.some.inj h]
    exact exists_pointsAt_of_goesOn t.mangling_mem (by decide +kernel)
  next =>
  split at h
  next harch =>
    have hwidth : t.pointerWidth = 32 := if_pos (.inr harch.symm)
    rw [hwidth, ← Option.some.inj h]
    exact exists_pointsAt_of_goesOn t.mangling_mem (by decide +kernel)
  next =>
  split at h
  next =>
    -- this text has the width of pointers written into it
    have htext : text = "e-" ++ "m:e" ++ ("-p:" ++ toString t.pointerWidth.toNat ++ ":" ++
        toString t.pointerWidth.toNat ++ "-p10:8:8-p20:8:8-i64:64-n32:64-S128-ni:1:10:20") := by
      rw [← Option.some.inj h, ← String.toList_inj]
      simp [String.toList_append]
    rw [htext]
    refine exists_pointsAt_of_goesOn (by decide) ?_
    rcases t.pointerWidth_cases with hwidth | hwidth <;> rw [hwidth] <;> decide +kernel
  next => cases h

/-- The architectures that have a layout text, one of them only as one of Apple's. -/
def IsKnown (t : TargetTriple) : Prop :=
  t.arch ∈ ["x86_64", "aarch64", "i686", "i386"] ∨ "wasm".toList <+: t.arch.toList ∨
    t.arch = "arm64" ∧ t.vendor = "apple"

theorem layoutText?_ne_none_iff {t : TargetTriple} : t.layoutText? ≠ none ↔ t.IsKnown := by
  unfold layoutText? IsKnown
  rw [← isApple_iff, ← isWasm_iff]
  split_ifs <;> simp only [ne_eq, reduceCtorEq, not_false_eq_true, not_true_eq_false, true_iff, false_iff,
    List.mem_cons, List.not_mem_nil, or_false] <;> tauto

/-- The layout text depends on the architecture, on whether the vendor is Apple and on whether the operating system is
Windows, and on nothing else. -/
theorem layoutText?_congr {t t' : TargetTriple} (harch : t.arch = t'.arch) (happle : t.isApple = t'.isApple)
    (hwindows : t.isWindows = t'.isWindows) : t.layoutText? = t'.layoutText? := by
  unfold layoutText? mangling isWasm pointerWidth
  rw [harch, happle, hwindows]

end TargetTriple

/-! ## The layout of a target -/

namespace DataLayout

variable {text text' : String} {t t' : TargetTriple}

theorem ofTriple_of_parse (h : TargetTriple.parse text = .ok t) :
    ofTriple text =
      match t.layoutText? with
      | some layoutText => parse layoutText
      | none => .error ⟨text, .unknownArchitecture t.arch⟩ := by
  rw [ofTriple, h]
  rfl

/-- A triple has a layout that points at the right width, or its architecture is not known. -/
theorem ofTriple_cases (h : TargetTriple.parse text = .ok t) :
    (t.IsKnown ∧ ∃ layout, ofTriple text = .ok layout ∧ layout.PointsAt t.pointerWidth) ∨
      (¬ t.IsKnown ∧ ofTriple text = .error ⟨text, .unknownArchitecture t.arch⟩) := by
  rw [ofTriple_of_parse h, ← TargetTriple.layoutText?_ne_none_iff]
  cases hlayout : t.layoutText? with
  | none => exact .inr ⟨not_not.2 rfl, rfl⟩
  | some layoutText => exact .inl ⟨Option.some_ne_none _, TargetTriple.exists_pointsAt_of_layoutText? hlayout⟩

theorem ofTriple_congr (h : TargetTriple.parse text = .ok t) (h' : TargetTriple.parse text' = .ok t')
    (harch : t'.arch = t.arch) (happle : t'.isApple = t.isApple) (hwindows : t'.isWindows = t.isWindows)
    (hknown : t.IsKnown) : ofTriple text' = ofTriple text := by
  rw [ofTriple_of_parse h, ofTriple_of_parse h', TargetTriple.layoutText?_congr harch happle hwindows]
  obtain ⟨layoutText, hlayout⟩ := Option.ne_none_iff_exists'.1 (TargetTriple.layoutText?_ne_none_iff.2 hknown)
  rw [hlayout]

/-- **The layout of a target agrees with its triple.** A text that is no triple has no layout, for just this reason.
A triple has one just if its architecture is known, and otherwise the error names the triple and the architecture. The
layout is little-endian, and the size of pointers and both their alignments are the width that the name of the
architecture tells. Another triple with the same architecture gets the same layout, if it is just as much Apple's and
just as much for Windows. -/
theorem ofTriple_agrees (text : String) :
    (∀ e, TargetTriple.parse text = .error e → ofTriple text = .error e) ∧
    ∀ t, TargetTriple.parse text = .ok t →
      ((∃ layout, ofTriple text = .ok layout) ↔ t.IsKnown) ∧
      (∀ e, ofTriple text = .error e → e = ⟨text, .unknownArchitecture t.arch⟩) ∧
      (∀ layout, ofTriple text = .ok layout → layout.PointsAt t.pointerWidth) ∧
      ∀ text' t', TargetTriple.parse text' = .ok t' → t'.arch = t.arch → t'.isApple = t.isApple →
        t'.isWindows = t.isWindows → ∀ layout, ofTriple text = .ok layout → ofTriple text' = .ok layout := by
  refine ⟨fun e h => by rw [ofTriple, h]; rfl, fun t h => ?_⟩
  rcases ofTriple_cases h with ⟨hknown, layout, hlayout, hpoints⟩ | ⟨hunknown, herror⟩
  · refine ⟨⟨fun _ => hknown, fun _ => ⟨layout, hlayout⟩⟩, fun e he => ?_, fun layout' heq => ?_, ?_⟩
    · cases hlayout.symm.trans he
    · exact Except.ok.inj (hlayout.symm.trans heq) ▸ hpoints
    · intro text' t' h' harch happle hwindows layout' heq
      rw [ofTriple_congr h h' harch happle hwindows hknown, heq]
  · have hnone : ∀ layout, ofTriple text ≠ .ok layout := by
      intro layout hlayout
      cases herror.symm.trans hlayout
    refine ⟨⟨fun ⟨layout, hlayout⟩ => absurd hlayout (hnone layout), fun hknown => absurd hknown hunknown⟩,
      fun e he => (Except.error.inj (herror.symm.trans he)).symm, fun layout hlayout => absurd hlayout (hnone layout), ?_⟩
    intro text' t' _ _ _ _ layout hlayout
    exact absurd hlayout (hnone layout)

/-- Two triples of one architecture with 32 bits, one of them with an environment; a text with an empty piece; and an
architecture that is known for Apple only. -/
theorem ofTriple_agrees_wasm :
    let text := "wasm32-wasi-preview1-threads"
    let t : TargetTriple := ⟨"wasm32", "wasi", "preview1", some "threads"⟩
    let text' := "wasm32-unknown-unknown"
    let t' : TargetTriple := ⟨"wasm32", "unknown", "unknown", none⟩
    TargetTriple.parse text = .ok t ∧ TargetTriple.parse text' = .ok t' ∧ t'.arch = t.arch ∧
      t'.isApple = t.isApple ∧ t'.isWindows = t.isWindows ∧
      (∃ layout, ofTriple text = .ok layout ∧ ofTriple text' = .ok layout ∧ layout.size .ptr = 32) ∧
      ofTriple "wasm32--unknown" = .error ⟨"wasm32--unknown", .malformedTriple⟩ ∧
      ¬ ∃ layout, ofTriple "arm64-unknown-linux" = .ok layout := by
  intro text t text' t'
  have ht : TargetTriple.parse text = .ok t := by
    decide +kernel
  have ht' : TargetTriple.parse text' = .ok t' := by
    decide +kernel
  have hknown : t.IsKnown := .inr (.inl ⟨['3', '2'], by decide +kernel⟩)
  obtain ⟨hlayout, -, hpoints, hsame⟩ := (ofTriple_agrees text).2 t ht
  obtain ⟨layout, h⟩ := hlayout.2 hknown
  have harm : TargetTriple.parse "arm64-unknown-linux" = .ok ⟨"arm64", "unknown", "linux", none⟩ := by
    decide +kernel
  have hunknown : ¬ (⟨"arm64", "unknown", "linux", none⟩ : TargetTriple).IsKnown := by
    simp [TargetTriple.IsKnown]
  refine ⟨ht, ht', rfl, by decide, by decide, ⟨layout, h, ?_, ?_⟩, ?_, ?_⟩
  · exact hsame text' t' ht' rfl (by decide) (by decide) layout h
  · rw [(hpoints layout h).size]
    decide +kernel
  · exact (ofTriple_agrees "wasm32--unknown").1 _ (by decide +kernel)
  · rw [((ofTriple_agrees "arm64-unknown-linux").2 _ harm).1]
    exact hunknown

end DataLayout

end TernBackend
