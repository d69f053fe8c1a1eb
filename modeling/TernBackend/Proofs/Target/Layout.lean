import TernBackend.Proofs.Except
import TernBackend.Proofs.Table
import TernBackend.Proofs.Text.Numeral
import TernBackend.Target.Layout

/-!
# What a layout text says

The grammar of specifications is given by what each means (`Specifies`), and the reader accepts just that
(`ofPiece_eq_ok_iff`). A layout is read from left to right, so the last specification of a thing is the one that
counts (`view_foldl`). The tables have an entry of their own for every width that is asked for (`HasWidths`), so the
way to a wider entry is never taken and no other specification matters (`alignment_foldl_set`).

Together they say what a layout text means (`parse_means`).
-/

namespace TernBackend

/-! ## The grammar -/

namespace LayoutSetting

/-- A bit count: a numeral of a number that fits into 32 bits. -/
def IsBits (cs : List Char) (count : UInt32) : Prop := Text.IsNumeral cs count.toNat

/-- An alignment: a required bit count and possibly a preferred one, which is not below it. Further fields mean
nothing. -/
inductive Aligns : List (List Char) → Alignment → Prop
  | required {text abi} : IsBits text abi → Aligns [text] ⟨abi, abi⟩
  | preferred {text text' abi preferred more} : IsBits text abi → IsBits text' preferred → abi ≤ preferred →
      Aligns (text :: text' :: more) ⟨abi, preferred⟩

/-- What a specification means, given as its head and its fields. -/
inductive Specifies : List (List Char) → LayoutSetting → Prop
  | littleEndian {fields} : Specifies (['e'] :: fields) (.byteOrder true)
  | bigEndian {fields} : Specifies (['E'] :: fields) (.byteOrder false)
  | pointer {space text size fields alignment} : space = [] ∨ space = ['0'] → IsBits text size →
      Aligns fields alignment → Specifies (('p' :: space) :: text :: fields) (.pointer size alignment)
  | otherSpace {space number fields} : space ≠ [] → space ≠ ['0'] → IsBits space number →
      Specifies (('p' :: space) :: fields) .ignored
  | integer {text width fields alignment} : IsBits text width → Aligns fields alignment →
      Specifies (('i' :: text) :: fields) (.integer width alignment)
  | float {text width fields alignment} : IsBits text width → Aligns fields alignment →
      Specifies (('f' :: text) :: fields) (.float width alignment)
  | other {c text fields} : c ∈ ['m', 'n', 'S', 'a', 'v', 'A', 'G', 'P', 'F'] →
      Specifies ((c :: text) :: fields) .ignored

theorem bits_eq_ok_iff {cs : List Char} {count : UInt32} : bits cs = .ok count ↔ IsBits cs count := by
  rw [IsBits, ← Text.word32?_eq_some_iff, bits]
  cases Text.word32? cs <;> simp

theorem alignment_nil (text : List Char) : alignment text [] = (bits text).map fun abi => ⟨abi, abi⟩ := by
  rw [alignment]
  cases bits text with
  | error fault => rfl
  | ok abi => exact if_neg (UInt32.lt_irrefl abi)

theorem alignment_cons (text text' : List Char) (more : List (List Char)) :
    alignment text (text' :: more) =
      (bits text >>= fun abi => bits text' >>= fun preferred =>
        if preferred < abi then .error (.preferredBelowAbi preferred abi) else .ok ⟨abi, preferred⟩) := rfl

theorem alignment_eq_ok_iff {text : List Char} {more : List (List Char)} {a : Alignment} :
    alignment text more = .ok a ↔ Aligns (text :: more) a := by
  cases more with
  | nil =>
    rw [alignment_nil, map_eq_ok_iff]
    constructor
    · rintro ⟨abi, habi, rfl⟩
      exact .required (bits_eq_ok_iff.1 habi)
    · rintro ⟨habi⟩
      exact ⟨_, bits_eq_ok_iff.2 habi, rfl⟩
  | cons text' more =>
    rw [alignment_cons, bind_eq_ok_iff]
    constructor
    · rintro ⟨abi, habi, h⟩
      obtain ⟨preferred, hpreferred, h⟩ := bind_eq_ok_iff.1 h
      split at h
      next => cases h
      next hnot =>
        cases h
        exact .preferred (bits_eq_ok_iff.1 habi) (bits_eq_ok_iff.1 hpreferred) (UInt32.not_lt.1 hnot)
    · intro h
      cases h with
      | @preferred _ _ abi preferred _ habi hpreferred hle =>
        refine ⟨abi, bits_eq_ok_iff.2 habi, bind_eq_ok_iff.2 ⟨preferred, bits_eq_ok_iff.2 hpreferred, ?_⟩⟩
        exact if_neg (UInt32.not_lt.2 hle)

theorem ofPointer_eq_ok_iff {whole : List Char} {fields : List (List Char)} {setting : LayoutSetting} :
    ofPointer whole fields = .ok setting ↔
      ∃ text size more alignment, fields = text :: more ∧ IsBits text size ∧ Aligns more alignment ∧
        .pointer size alignment = setting := by
  constructor
  · intro h
    unfold ofPointer at h
    split at h
    next text abi more =>
      obtain ⟨size, hsize, h⟩ := bind_eq_ok_iff.1 h
      obtain ⟨alignment, halignment, h⟩ := bind_eq_ok_iff.1 h
      exact ⟨text, size, abi :: more, alignment, rfl, bits_eq_ok_iff.1 hsize, alignment_eq_ok_iff.1 halignment,
        Except.ok.inj h⟩
    next => cases h
  · rintro ⟨text, size, more, alignment, rfl, hsize, halignment, rfl⟩
    cases more with
    | nil => cases halignment
    | cons abi more =>
      exact bind_eq_ok_iff.2 ⟨size, bits_eq_ok_iff.2 hsize, bind_eq_ok_iff.2
        ⟨alignment, alignment_eq_ok_iff.2 halignment, rfl⟩⟩

theorem ofWidth_eq_ok_iff {kind : UInt32 → Alignment → LayoutSetting} {whole text : List Char}
    {fields : List (List Char)} {setting : LayoutSetting} :
    ofWidth kind whole text fields = .ok setting ↔
      ∃ width alignment, IsBits text width ∧ Aligns fields alignment ∧ kind width alignment = setting := by
  rw [ofWidth, bind_eq_ok_iff]
  constructor
  · rintro ⟨width, hwidth, h⟩
    cases fields with
    | nil => cases h
    | cons abi more =>
      obtain ⟨alignment, halignment, h⟩ := bind_eq_ok_iff.1 h
      exact ⟨width, alignment, bits_eq_ok_iff.1 hwidth, alignment_eq_ok_iff.1 halignment, Except.ok.inj h⟩
  · rintro ⟨width, alignment, hwidth, halignment, rfl⟩
    cases fields with
    | nil => cases halignment
    | cons abi more =>
      exact ⟨width, bits_eq_ok_iff.2 hwidth, bind_eq_ok_iff.2
        ⟨alignment, alignment_eq_ok_iff.2 halignment, rfl⟩⟩

theorem ofFields_eq_ok_iff {whole head : List Char} {fields : List (List Char)} {setting : LayoutSetting} :
    ofFields whole head fields = .ok setting ↔ Specifies (head :: fields) setting := by
  constructor
  -- one case for each kind of specification, in the order in which the letters are tried
  · intro h
    unfold ofFields at h
    split at h
    next =>
      cases h
      exact .littleEndian
    next =>
      cases h
      exact .bigEndian
    next space =>
      split at h
      next hspace =>
        obtain ⟨text, size, more, alignment, rfl, hsize, halignment, rfl⟩ := ofPointer_eq_ok_iff.1 h
        exact .pointer hspace hsize halignment
      next hspace =>
        obtain ⟨number, hnumber, rfl⟩ := map_eq_ok_iff.1 h
        rw [not_or] at hspace
        exact .otherSpace hspace.1 hspace.2 (bits_eq_ok_iff.1 hnumber)
    next text =>
      obtain ⟨width, alignment, hwidth, halignment, rfl⟩ := ofWidth_eq_ok_iff.1 h
      exact .integer hwidth halignment
    next text =>
      obtain ⟨width, alignment, hwidth, halignment, rfl⟩ := ofWidth_eq_ok_iff.1 h
      exact .float hwidth halignment
    next =>
      split at h
      next hc =>
        cases h
        exact .other hc
      next => cases h
    next => cases h
  · intro h
    cases h with
    | littleEndian => rfl
    | bigEndian => rfl
    | @pointer space text size fields alignment hspace hsize halignment =>
      refine (if_pos hspace).trans (ofPointer_eq_ok_iff.2 ?_)
      exact ⟨text, size, fields, alignment, rfl, hsize, halignment, rfl⟩
    | @otherSpace space number fields hempty hzero hnumber =>
      refine (if_neg (not_or.2 ⟨hempty, hzero⟩)).trans (map_eq_ok_iff.2 ?_)
      exact ⟨number, bits_eq_ok_iff.2 hnumber, rfl⟩
    | @integer text width fields alignment hwidth halignment =>
      exact ofWidth_eq_ok_iff.2 ⟨width, alignment, hwidth, halignment, rfl⟩
    | @float text width fields alignment hwidth halignment =>
      exact ofWidth_eq_ok_iff.2 ⟨width, alignment, hwidth, halignment, rfl⟩
    | @other c text fields hc =>
      simp only [List.mem_cons, List.not_mem_nil, or_false] at hc
      rcases hc with rfl | rfl | rfl | rfl | rfl | rfl | rfl | rfl | rfl <;> rfl

theorem ofPiece_eq_ok_iff {piece : List Char} {setting : LayoutSetting} :
    ofPiece piece = .ok setting ↔ Specifies (piece.splitOn ':') setting := by
  unfold ofPiece
  split
  next head fields hsplit => rw [hsplit, ofFields_eq_ok_iff]
  next hsplit => exact absurd hsplit (List.splitOn_ne_nil ':' piece)

theorem Aligns.abi_le {fields : List (List Char)} {a : Alignment} (h : Aligns fields a) : a.abi ≤ a.preferred := by
  cases h with
  | required => exact UInt32.le_refl _
  | preferred _ _ hle => exact hle

/-! ## What a setting says -/

def integerWidth? : NativeType → Option UInt32
  | .i1 => some 1
  | .i8 => some 8
  | .i16 => some 16
  | .i32 => some 32
  | .i64 => some 64
  | .f32 | .f64 | .ptr => none

def floatWidth? : NativeType → Option UInt32
  | .f32 => some 32
  | .f64 => some 64
  | .i1 | .i8 | .i16 | .i32 | .i64 | .ptr => none

def littleEndian? : LayoutSetting → Option Bool
  | .byteOrder little => some little
  | _ => none

def pointerSize? : LayoutSetting → Option UInt32
  | .pointer size _ => some size
  | _ => none

/-- What a setting says about the alignment of a type: something only if it is for pointers and the type is that of
pointers, or if it is for integers or floats of just the width of the type. -/
def alignment? (type : NativeType) : LayoutSetting → Option Alignment
  | .pointer _ alignment => if type = .ptr then some alignment else none
  | .integer width alignment => if integerWidth? type = some width then some alignment else none
  | .float width alignment => if floatWidth? type = some width then some alignment else none
  | .ignored | .byteOrder _ => none

/-- What the last of the settings that say something about a thing says about it. -/
def lastSaid {α : Type} (said : LayoutSetting → Option α) (settings : List LayoutSetting) (unsaid : α) : α :=
  (settings.filterMap said).getLast?.getD unsaid

theorem lastSaid_cons {α : Type} (said : LayoutSetting → Option α) (setting : LayoutSetting)
    (settings : List LayoutSetting) (unsaid : α) :
    lastSaid said (setting :: settings) unsaid = lastSaid said settings ((said setting).getD unsaid) := by
  unfold lastSaid
  cases hsaid : said setting with
  | none => rw [List.filterMap_cons_none hsaid, Option.getD_none]
  | some value =>
    rw [List.filterMap_cons_some hsaid, List.getLast?_cons, Option.getD_some, Option.getD_some]

/-- What is said last has been said by some setting, or nobody has said anything. -/
theorem lastSaid_cases {α : Type} (said : LayoutSetting → Option α) (settings : List LayoutSetting) (unsaid : α) :
    lastSaid said settings unsaid = unsaid ∨
      ∃ setting ∈ settings, said setting = some (lastSaid said settings unsaid) := by
  unfold lastSaid
  cases hlast : (settings.filterMap said).getLast? with
  | none => exact .inl rfl
  | some value => exact .inr (List.mem_filterMap.1 (List.mem_of_getLast? hlast))

end LayoutSetting

namespace DataLayout

open LayoutSetting

/-! ## Reading settings from left to right -/

/-- If each setting that says something about a view replaces it, and the others leave it, then what is said last
counts. -/
theorem view_foldl {α : Type} (view : DataLayout → α) (said : LayoutSetting → Option α) (Keeps : DataLayout → Prop)
    (hkeeps : ∀ layout setting, Keeps layout → Keeps (layout.set setting))
    (hview : ∀ layout setting, Keeps layout → view (layout.set setting) = (said setting).getD (view layout))
    (settings : List LayoutSetting) {layout : DataLayout} (hlayout : Keeps layout) :
    view (settings.foldl set layout) = lastSaid said settings (view layout) := by
  induction settings generalizing layout with
  | nil => rfl
  | cons setting settings ih =>
    rw [List.foldl_cons, ih (hkeeps layout setting hlayout), hview layout setting hlayout, lastSaid_cons]

theorem littleEndian_foldl_set (settings : List LayoutSetting) (layout : DataLayout) :
    (settings.foldl set layout).littleEndian = lastSaid littleEndian? settings layout.littleEndian := by
  refine view_foldl (·.littleEndian) littleEndian? (fun _ => True) (fun _ _ _ => trivial) (fun _ setting _ => ?_) settings
    trivial
  cases setting <;> rfl

theorem pointerSize_foldl_set (settings : List LayoutSetting) (layout : DataLayout) :
    (settings.foldl set layout).pointerSize = lastSaid pointerSize? settings layout.pointerSize := by
  refine view_foldl (·.pointerSize) pointerSize? (fun _ => True) (fun _ _ _ => trivial) (fun _ setting _ => ?_) settings
    trivial
  cases setting <;> rfl

/-! ## Alignments -/

/-- Every width that is asked for has an entry of its own. -/
structure HasWidths (layout : DataLayout) : Prop where
  integers : ∀ type width, integerWidth? type = some width → layout.integers.get? width ≠ none
  floats : ∀ type width, floatWidth? type = some width → layout.floats.get? width ≠ none

theorem hasWidths_standard : HasWidths standard where
  integers type width h := by cases type <;> cases h <;> decide
  floats type width h := by cases type <;> cases h <;> decide

theorem get?_insert_ne_none {table : Table UInt32 Alignment} {width : UInt32} (h : table.get? width ≠ none)
    (width' : UInt32) (alignment : Alignment) : (table.insert width' alignment).get? width ≠ none := by
  rw [Table.get?_insert]
  split
  · exact Option.some_ne_none alignment
  · exact h

theorem HasWidths.set {layout : DataLayout} (h : layout.HasWidths) (setting : LayoutSetting) :
    (layout.set setting).HasWidths := by
  cases setting with
  | ignored | byteOrder | pointer => exact ⟨h.integers, h.floats⟩
  | integer width' alignment =>
    exact ⟨fun type width hwidth => get?_insert_ne_none (h.integers type width hwidth) width' alignment, h.floats⟩
  | float width' alignment =>
    exact ⟨h.integers, fun type width hwidth => get?_insert_ne_none (h.floats type width hwidth) width' alignment⟩

/-- Where a width has an entry, the entries of other widths do not matter. -/
theorem alignmentIn_insert {table : Table UInt32 Alignment} {width : UInt32} (h : table.get? width ≠ none)
    (width' : UInt32) (alignment : Alignment) :
    alignmentIn (table.insert width' alignment) width =
      if width = width' then alignment else alignmentIn table width := by
  obtain ⟨old, hold⟩ := Option.ne_none_iff_exists'.1 h
  have hget := Table.get?_insert table width' width alignment
  by_cases hwidth : width = width'
  · rw [if_pos hwidth] at hget ⊢
    rw [alignmentIn, Table.atLeast?_of_get?_eq_some hget, Option.getD_some]
  · rw [if_neg hwidth, hold] at hget
    rw [if_neg hwidth, alignmentIn, alignmentIn, Table.atLeast?_of_get?_eq_some hget,
      Table.atLeast?_of_get?_eq_some hold]

theorem alignment_of_integerWidth {type : NativeType} {width : UInt32} (h : integerWidth? type = some width)
    (layout : DataLayout) : layout.alignment type = alignmentIn layout.integers width := by
  cases type <;> cases h <;> rfl

theorem alignment_of_floatWidth {type : NativeType} {width : UInt32} (h : floatWidth? type = some width)
    (layout : DataLayout) : layout.alignment type = alignmentIn layout.floats width := by
  cases type <;> cases h <;> rfl

theorem alignment_set {layout : DataLayout} (h : layout.HasWidths) (type : NativeType) (setting : LayoutSetting) :
    (layout.set setting).alignment type = (alignment? type setting).getD (layout.alignment type) := by
  cases setting with
  | ignored | byteOrder => rfl
  | pointer => cases type <;> rfl
  | integer width' alignment =>
    -- a type that is no integer does not look into this table, and a width of its own hides all others
    cases hwidth : integerWidth? type with
    | none => cases type <;> simp [integerWidth?] at hwidth <;> rfl
    | some width =>
      have hinsert := alignmentIn_insert (h.integers type width hwidth) width' alignment
      rw [alignment_of_integerWidth hwidth, alignment_of_integerWidth hwidth, alignment?, hwidth]
      refine hinsert.trans ?_
      by_cases hsame : width = width' <;> simp [hsame]
  | float width' alignment =>
    cases hwidth : floatWidth? type with
    | none => cases type <;> simp [floatWidth?] at hwidth <;> rfl
    | some width =>
      have hinsert := alignmentIn_insert (h.floats type width hwidth) width' alignment
      rw [alignment_of_floatWidth hwidth, alignment_of_floatWidth hwidth, alignment?, hwidth]
      refine hinsert.trans ?_
      by_cases hsame : width = width' <;> simp [hsame]

theorem alignment_foldl_set (settings : List LayoutSetting) {layout : DataLayout} (h : layout.HasWidths)
    (type : NativeType) :
    (settings.foldl set layout).alignment type = lastSaid (alignment? type) settings (layout.alignment type) :=
  view_foldl (·.alignment type) (alignment? type) HasWidths (fun _ setting hkeeps => hkeeps.set setting)
    (fun _ setting hkeeps => alignment_set hkeeps type setting) settings h

/-! ## The result -/

/-- The settings that the specifications of a layout text make. The empty text has no specifications. -/
def IsMade (text : String) (settings : List LayoutSetting) : Prop :=
  if text = "" then settings = []
  else List.Forall₂ (fun piece setting => Specifies (piece.splitOn ':') setting) (text.toList.splitOn '-') settings

theorem settings_eq_ok_iff {text : String} {made : List LayoutSetting} :
    settings text.toList = .ok made ↔ IsMade text made := by
  have hempty : text.toList = [] ↔ text = "" := String.toList_eq_nil_iff
  rw [settings, IsMade]
  by_cases h : text = ""
  · rw [if_pos h, if_pos (hempty.2 h)]
    exact ⟨fun hok => (Except.ok.inj hok).symm, fun hmade => hmade ▸ rfl⟩
  · rw [if_neg h, if_neg (mt hempty.1 h), mapM_eq_ok_iff]
    simp only [ofPiece_eq_ok_iff]

theorem exists_of_forall₂_of_mem {α β : Type} {R : α → β → Prop} {as : List α} {bs : List β}
    (h : List.Forall₂ R as bs) {b : β} (hb : b ∈ bs) : ∃ a, R a b := by
  induction h with
  | nil => cases hb
  | cons hab _ ih =>
    cases hb with
    | head => exact ⟨_, hab⟩
    | tail _ hb => exact ih hb

theorem exists_isMade_iff {text : String} :
    (∃ made, IsMade text made) ↔
      text = "" ∨ ∀ piece ∈ text.toList.splitOn '-', ∃ setting, Specifies (piece.splitOn ':') setting := by
  unfold IsMade
  by_cases h : text = ""
  · simp only [h, if_true, true_or, exists_eq]
  · simp only [h, if_false, false_or, exists_forall₂_iff]

/-- The settings of a layout text are those that its specifications mean, each of them. -/
theorem specifies_of_mem {text : String} {made : List LayoutSetting} (h : IsMade text made) {setting : LayoutSetting}
    (hsetting : setting ∈ made) : ∃ fields, Specifies fields setting := by
  unfold IsMade at h
  split at h
  · subst h
    cases hsetting
  · obtain ⟨_, hpiece⟩ := exists_of_forall₂_of_mem h hsetting
    exact ⟨_, hpiece⟩

/-- What a type has by default. -/
def unspecified : NativeType → Alignment
  | .i1 | .i8 => ⟨8, 8⟩
  | .i16 => ⟨16, 16⟩
  | .i32 | .f32 => ⟨32, 32⟩
  | .i64 => ⟨32, 64⟩
  | .f64 | .ptr => ⟨64, 64⟩

theorem alignment_standard (type : NativeType) : standard.alignment type = unspecified type := by
  cases type <;> decide

theorem parse_eq_ok_iff {text : String} {layout : DataLayout} :
    parse text = .ok layout ↔
      ∃ made, IsMade text made ∧ made.foldl set { standard with source := text } = layout := by
  rw [parse]
  cases hmade : settings text.toList with
  | error fault => simp [← settings_eq_ok_iff, hmade]
  | ok made => simp [← settings_eq_ok_iff, hmade]

theorem layout_of_parse_eq_error {text : String} {e : LayoutError} (h : parse text = .error e) : e.layout = text := by
  rw [parse] at h
  split at h
  · cases h
  · cases h
    rfl

/-- No setting that a specification means prefers less than it requires. -/
theorem abi_le_of_alignment? {fields : List (List Char)} {setting : LayoutSetting} (h : Specifies fields setting)
    {type : NativeType} {a : Alignment} (ha : alignment? type setting = some a) : a.abi ≤ a.preferred := by
  unfold alignment? at ha
  cases h with
  | littleEndian | bigEndian | otherSpace | other => cases ha
  | pointer _ _ halignment | integer _ halignment | float _ halignment =>
    obtain ⟨-, rfl⟩ := Option.ite_some_none_eq_some.1 ha
    exact halignment.abi_le

theorem alignment_foldl_set_standard {text : String} {made : List LayoutSetting} (type : NativeType) :
    (made.foldl set { standard with source := text }).alignment type =
      lastSaid (alignment? type) made (unspecified type) := by
  have hwidths : HasWidths { standard with source := text } := ⟨hasWidths_standard.integers, hasWidths_standard.floats⟩
  rw [alignment_foldl_set made hwidths, ← alignment_standard type]
  rfl

theorem abi_le_alignment {text : String} {layout : DataLayout} (h : parse text = .ok layout) (type : NativeType) :
    (layout.alignment type).abi ≤ (layout.alignment type).preferred := by
  obtain ⟨made, hmade, rfl⟩ := parse_eq_ok_iff.1 h
  rw [alignment_foldl_set_standard]
  obtain hsaid | ⟨setting, hmem, hsaid⟩ := lastSaid_cases (alignment? type) made (unspecified type)
  · rw [hsaid]
    cases type <;> decide
  · obtain ⟨_, hsetting⟩ := specifies_of_mem hmade hmem
    exact abi_le_of_alignment? hsetting hsaid

theorem size_ptr_foldl_set (settings : List LayoutSetting) (layout : DataLayout) :
    (settings.foldl set layout).size .ptr = (lastSaid pointerSize? settings layout.pointerSize).toUInt64 := by
  rw [size, pointerSize_foldl_set]

/-- **What a layout text means.** It is read just if it is empty or each of its specifications means something, and the
error of any other is about the whole text. What is read is, for the byte order, for the size of pointers and for the
alignment of each type, what the last specification of just that thing says, or the default, and that is what whoever
asks the layout of the target is told. No alignment prefers less than it requires. -/
theorem parse_means (text : String) :
    ((∃ layout, parse text = .ok layout) ↔
      text = "" ∨ ∀ piece ∈ text.toList.splitOn '-', ∃ setting, Specifies (piece.splitOn ':') setting) ∧
    (∀ e, parse text = .error e → e.layout = text) ∧
    ∀ made, IsMade text made → ∃ layout, parse text = .ok layout ∧
      layout.littleEndian = lastSaid littleEndian? made true ∧
      layout.pointerSize = lastSaid pointerSize? made 64 ∧
      layout.size .ptr = (lastSaid pointerSize? made 64).toUInt64 ∧
      (∀ type, layout.alignment type = lastSaid (alignment? type) made (unspecified type) ∧
        (layout.alignment type).abi ≤ (layout.alignment type).preferred) ∧
      layout.toTargetLayout.size .ptr = layout.size .ptr ∧
      ∀ type, layout.toTargetLayout.preferredAlignment type = (layout.alignment type).preferred := by
  refine ⟨?_, fun _ => layout_of_parse_eq_error, fun made hmade => ?_⟩
  · rw [← exists_isMade_iff]
    constructor
    · rintro ⟨layout, h⟩
      obtain ⟨made, hmade, -⟩ := parse_eq_ok_iff.1 h
      exact ⟨made, hmade⟩
    · rintro ⟨made, hmade⟩
      exact ⟨_, parse_eq_ok_iff.2 ⟨made, hmade, rfl⟩⟩
  · have hparse := parse_eq_ok_iff.2 ⟨made, hmade, rfl⟩
    refine ⟨_, hparse, littleEndian_foldl_set made _, pointerSize_foldl_set made _, size_ptr_foldl_set made _,
      fun type => ?_, rfl, fun _ => rfl⟩
    exact ⟨alignment_foldl_set_standard type, abi_le_alignment hparse type⟩

/-- Pointers of 32 bits, and two specifications of `i8` with one of another width and one of floats of its width. -/
def overridden : String := "E-p:32:32-i8:8:32-i8:16-i24:64-f8:64"

theorem parse_means_overridden :
    ∃ layout, parse overridden = .ok layout ∧ layout.littleEndian = false ∧ layout.size .ptr = 32 ∧
      layout.alignment .i8 = ⟨16, 16⟩ ∧ layout.alignment .i16 = ⟨16, 16⟩ := by
  have hmade : IsMade overridden
      [.byteOrder false, .pointer 32 ⟨32, 32⟩, .integer 8 ⟨8, 32⟩, .integer 8 ⟨16, 16⟩, .integer 24 ⟨64, 64⟩,
        .float 8 ⟨64, 64⟩] := settings_eq_ok_iff.1 (by decide +kernel)
  obtain ⟨layout, hparse, hendian, -, hsize, halignment, -, -⟩ := (parse_means overridden).2.2 _ hmade
  exact ⟨layout, hparse, hendian, hsize, (halignment .i8).1, (halignment .i16).1⟩

end DataLayout
end TernBackend
