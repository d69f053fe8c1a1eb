import TernBackend.Proofs.Container.Extension
import TernBackend.Proofs.Container.Format

/-!
# What any file tells

A file may hold any bytes, and the numbers in them are whatever its writer liked. What a reader makes of it is
said here by the places of the format: the fields of the preamble at their offsets (`Framed`, `writtenVersion`,
`indexLength`), and an index whose written form stands behind them (`Holds`). All sums and comparisons are of
numbers without a bound, so where the reader adds in 64 bits it is shown that nothing is lost
(`toNat_payloadStart`, `range?_eq_some_iff`).

`header_classification` goes through all that can be the matter with a header, in the order in which it is found;
`fragment_inside_payload` says that a fragment is just the bytes at its place, or refused.
-/

namespace TernBackend.Container

/-! ## The places of the format -/

/-- The file has the bytes of a preamble, with the magic bytes and the one framing there is. -/
def Framed (f : Bytes) : Prop := 28 ≤ f.length ∧ f.take 4 = magic ∧ Preamble.word f 4 2 = 1

/-- The version in the bytes from 8 to 20. -/
def writtenVersion (f : Bytes) : AbiVersion :=
  ⟨.ofNat (Preamble.word f 8 4), .ofNat (Preamble.word f 12 4), .ofNat (Preamble.word f 16 4)⟩

/-- The length of the index in the bytes from 20 to 28. -/
def indexLength (f : Bytes) : Nat := Preamble.word f 20 8

/-- As many bytes as the index is said to have stand behind the preamble, and they begin with the index. -/
def Holds (f : Bytes) (index : Index) : Prop :=
  28 + indexLength f ≤ f.length ∧ index.encode <+: (f.drop 28).take (indexLength f)

/-! ## The preamble -/

theorem word_take {f : Bytes} {start width n : Nat} (h : start + width ≤ n) :
    Preamble.word (f.take n) start width = Preamble.word f start width := by
  rw [Preamble.word, Preamble.word, List.drop_take, List.take_take, Nat.min_eq_left (by omega)]

theorem word_lt (f : Bytes) (start width : Nat) : Preamble.word f start width < 256 ^ width := by
  have hlength : ((f.drop start).take width).length ≤ width := by simp
  exact Nat.lt_of_lt_of_le (Wire.value_lt _) (Nat.pow_le_pow_right (by decide) hlength)

/-- The preamble that a framed file has. -/
def writtenPreamble (f : Bytes) : Preamble := ⟨writtenVersion f, .ofNat (indexLength f)⟩

theorem toNat_indexLength (f : Bytes) : (writtenPreamble f).indexLength.toNat = indexLength f :=
  Wire.toNat_count (word_lt f 20 8)

theorem ofFront_take (f : Bytes) : Preamble.ofFront (f.take 28) =
    if f.take 4 ≠ magic then .error (.badMagic (f.take 4))
    else if Preamble.word f 4 2 ≠ 1 then .error (.framing (.ofNat (Preamble.word f 4 2)))
    else .ok (writtenPreamble f) := by
  have hlt : Preamble.word f 4 2 < 2 ^ 16 := word_lt f 4 2
  have hframing : UInt16.ofNat (Preamble.word f 4 2) = framingVersion ↔ Preamble.word f 4 2 = 1 := by
    rw [← UInt16.toNat_inj, UInt16.toNat_ofNat', Nat.mod_eq_of_lt hlt]
    rfl
  simp only [Preamble.ofFront, List.take_take, Nat.min_eq_left (show 4 ≤ 28 by decide), word_take (f := f),
    Nat.reduceAdd, Nat.reduceLeDiff, ne_eq, hframing]
  rfl

variable (path : Path) {f : Bytes}

/-- What is found at the front of a file, in the order in which it is looked at. -/
theorem preamble_eq (f : Bytes) : preamble path f =
    if f.length < 28 then .error (.corruptContainer path .endOfFile)
    else if f.take 4 ≠ magic then .error (.corruptContainer path (.badMagic (f.take 4)))
    else if Preamble.word f 4 2 ≠ 1 then
      .error (.corruptContainer path (.framing (.ofNat (Preamble.word f 4 2))))
    else .ok (writtenPreamble f, f.drop 28) := by
  unfold preamble Preamble.decode
  split
  next hcut =>
    have hshort : f.length < 28 := Wire.cut?_eq_none_iff.1 hcut
    rw [if_pos hshort]
    rfl
  next front rest hcut =>
    obtain ⟨rfl, hfront⟩ := Wire.cut?_eq_some_iff.1 hcut
    have hlength : ¬ (front ++ rest).length < 28 := by
      rw [List.length_append, hfront, Preamble.length]
      omega
    have htake : front = (front ++ rest).take 28 := (List.take_left' hfront).symm
    have hdrop : (front ++ rest).drop 28 = rest := List.drop_left' hfront
    rw [if_neg hlength, hdrop, congrArg Preamble.ofFront htake, ofFront_take]
    split
    · rfl
    · split <;> rfl

theorem preamble_of_framed (h : Framed f) : preamble path f = .ok (writtenPreamble f, f.drop 28) := by
  obtain ⟨hlength, hmagic, hframing⟩ := h
  rw [preamble_eq, if_neg (by omega), if_neg (not_not.2 hmagic), if_neg (not_not.2 hframing)]

theorem preamble_of_not_framed (h : ¬ Framed f) :
    ∃ corruption, preamble path f = .error (.corruptContainer path corruption) := by
  rw [preamble_eq]
  split
  · exact ⟨_, rfl⟩
  next hlength =>
    split
    · exact ⟨_, rfl⟩
    next hmagic =>
      split
      · exact ⟨_, rfl⟩
      next hframing => exact absurd ⟨by omega, not_not.1 hmagic, not_not.1 hframing⟩ h

/-! ## The index -/

theorem index_of_holds {index : Index} (h : Holds f index) :
    Container.index path (writtenPreamble f) (f.drop 28) = .ok index := by
  obtain ⟨hfits, rest, hrest⟩ := h
  have hlength : index.encode.length + rest.length ≤ indexLength f := by
    rw [← List.length_append, hrest]
    simp
  -- the length in the preamble is a field of eight bytes, so no index that stands there is too long
  have hlt : indexLength f < 2 ^ 64 := word_lt f 20 8
  have hindex : index.encode.length < 2 ^ 64 := by omega
  have hread := Index.reads hindex rest
  unfold Container.index
  rw [toNat_indexLength, if_neg (by rw [List.length_drop]; omega), ← hrest, hread]

/-- A length that the file does not have is refused before it is used. -/
theorem index_of_short (hlength : 28 ≤ f.length) (h : f.length < 28 + indexLength f) :
    Container.index path (writtenPreamble f) (f.drop 28) =
      .error (.corruptContainer path (.indexTooLong (.ofNat (indexLength f)) (f.length - 28))) := by
  unfold Container.index
  rw [toNat_indexLength, if_pos (by rw [List.length_drop]; omega), List.length_drop]
  rfl

theorem index_of_undecodable (hfits : 28 + indexLength f ≤ f.length)
    (h : ∀ index : Index, ¬ index.encode <+: (f.drop 28).take (indexLength f)) :
    ∃ fault, Container.index path (writtenPreamble f) (f.drop 28) =
      .error (.corruptContainer path (.index fault)) := by
  unfold Container.index
  rw [toNat_indexLength, if_neg (by rw [List.length_drop]; omega)]
  split
  next index rest hdecode => exact absurd ⟨rest, (Index.canonical hdecode).symm⟩ (h index)
  next fault _ => exact ⟨fault, rfl⟩

theorem index_of_not_holds (hlength : 28 ≤ f.length) (h : ∀ index, ¬ Holds f index) :
    ∃ corruption, Container.index path (writtenPreamble f) (f.drop 28) =
      .error (.corruptContainer path corruption) := by
  by_cases hfits : 28 + indexLength f ≤ f.length
  · obtain ⟨fault, hindex⟩ := index_of_undecodable path hfits fun index hi => h index ⟨hfits, hi⟩
    exact ⟨_, hindex⟩
  · exact ⟨_, index_of_short path hlength (by omega)⟩

/-! ## Headers -/

theorem header_of_error {e : LibraryError} (h : preamble path f = .error e) (version : AbiVersion) :
    header path f version = .error e := by
  rw [header, h]
  rfl

theorem header_of_other_version (h : Framed f) {version : AbiVersion} (hne : writtenVersion f ≠ version) :
    header path f version = .error (.versionMismatch path version (writtenVersion f)) := by
  have hversion : (writtenPreamble f).abiVersion ≠ version := hne
  rw [header, preamble_of_framed path h]
  simp only [bind, Except.bind, if_pos hversion]
  rfl

section

variable (h : Framed f)
include h

theorem header_of_index_error {e : LibraryError}
    (hindex : Container.index path (writtenPreamble f) (f.drop 28) = .error e) :
    header path f (writtenVersion f) = .error e := by
  have hversion : ¬ (writtenPreamble f).abiVersion ≠ writtenVersion f := fun hne => hne rfl
  rw [header, preamble_of_framed path h]
  simp only [bind, Except.bind, if_neg hversion, hindex]

theorem header_of_table_error {index : Index} (hindex : Holds f index) {fault : Base64.Fault}
    (htable : TableOfContents.ofEncoded index.tableOfContents = .error fault) :
    header path f (writtenVersion f) = .error (.corruptContainer path (.tableOfContents fault)) := by
  have hversion : ¬ (writtenPreamble f).abiVersion ≠ writtenVersion f := fun hne => hne rfl
  rw [header, preamble_of_framed path h]
  simp only [bind, Except.bind, if_neg hversion, index_of_holds path hindex, htable]
  rfl

theorem header_of_holds {index : Index} (hindex : Holds f index) {t : TableOfContents}
    (htable : TableOfContents.ofEncoded index.tableOfContents = .ok t) :
    header path f (writtenVersion f) = .ok ⟨index.moduleName, t⟩ := by
  have hversion : ¬ (writtenPreamble f).abiVersion ≠ writtenVersion f := fun hne => hne rfl
  rw [header, preamble_of_framed path h]
  simp only [bind, Except.bind, if_neg hversion, index_of_holds path hindex, htable]
  rfl

end

/-- **Headers of any file.** The file of a path holds the bytes `f`. If these are too few for a preamble, or do not
begin with the magic bytes, or have another framing, the header is corrupt. Otherwise it is refused if the version
in the preamble is another than the one that is asked for, whatever the rest of the file is. Under the version in
the preamble it is corrupt if the index is said to be longer than the rest of the file, if these bytes do not begin
with the written form of an index, or if the index has a table of contents that is no base64 of any bytes; else it
is the header of that index. So there is no other answer, and a length is used only when the file has it. -/
theorem header_classification {fs : FileSystem} {path : Path} {f : Bytes} (hfile : fs.library path = .ok f)
    (version : AbiVersion) :
    (f.length < 28 → fs.header path version = .error (.corruptContainer path .endOfFile)) ∧
    (28 ≤ f.length → f.take 4 ≠ magic →
      fs.header path version = .error (.corruptContainer path (.badMagic (f.take 4)))) ∧
    (28 ≤ f.length → f.take 4 = magic → Preamble.word f 4 2 ≠ 1 →
      fs.header path version =
        .error (.corruptContainer path (.framing (.ofNat (Preamble.word f 4 2))))) ∧
    (Framed f → writtenVersion f ≠ version →
      fs.header path version = .error (.versionMismatch path version (writtenVersion f))) ∧
    (Framed f → writtenVersion f = version → f.length < 28 + indexLength f →
      fs.header path version =
        .error (.corruptContainer path (.indexTooLong (.ofNat (indexLength f)) (f.length - 28)))) ∧
    (Framed f → writtenVersion f = version → 28 + indexLength f ≤ f.length →
      (∀ index : Index, ¬ index.encode <+: (f.drop 28).take (indexLength f)) →
      ∃ fault, fs.header path version = .error (.corruptContainer path (.index fault))) ∧
    (Framed f → writtenVersion f = version → ∀ index, Holds f index →
      (∀ bytes, index.tableOfContents ≠ Base64.text bytes) →
      ∃ fault, fs.header path version = .error (.corruptContainer path (.tableOfContents fault))) ∧
    (Framed f → writtenVersion f = version → ∀ index, Holds f index →
      ∀ bytes, index.tableOfContents = Base64.text bytes →
      fs.header path version = .ok ⟨index.moduleName, .ofBytes bytes⟩) := by
  rw [FileSystem.header_of_library hfile]
  refine ⟨fun hshort => ?_, fun hlength hmagic => ?_, fun hlength hmagic hframing => ?_,
    fun h hne => header_of_other_version path h hne, ?_, ?_, ?_, ?_⟩
  · exact header_of_error path (by rw [preamble_eq, if_pos hshort]) version
  · exact header_of_error path (by rw [preamble_eq, if_neg (by omega), if_pos hmagic]) version
  · refine header_of_error path ?_ version
    rw [preamble_eq, if_neg (by omega), if_neg (not_not.2 hmagic), if_pos hframing]
  · rintro h rfl hshort
    exact header_of_index_error path h (index_of_short path h.1 hshort)
  · rintro h rfl hfits hnone
    obtain ⟨fault, hindex⟩ := index_of_undecodable path hfits hnone
    exact ⟨fault, header_of_index_error path h hindex⟩
  · rintro h rfl index hindex hnone
    cases hencoded : TableOfContents.ofEncoded index.tableOfContents with
    | error fault => exact ⟨fault, header_of_table_error path h hindex hencoded⟩
    -- a table that is read is the written form of its bytes
    | ok t =>
      obtain ⟨htext, ht⟩ := TableOfContents.ofEncoded_eq_ok_iff.1 hencoded
      refine absurd ?_ (hnone t.bytes)
      rw [← htext, ← ht]
      rfl
  · rintro h rfl index hindex bytes htable
    exact header_of_holds path h hindex (htable ▸ TableOfContents.ofEncoded_ofBytes bytes)

/-- The index of this file is said to be longer than any file, and it is never looked at under another version. -/
theorem header_classification_oversized :
    let f : Bytes := (⟨⟨9, 0, 0⟩, 0xFFFFFFFFFFFFFFFF⟩ : Preamble).encode
    let fs := (FileTree.ofFiles [(Utf8.encode "lib", f)]).toFileSystem
    Framed f ∧ fs.header (.ofText "lib") .current = .error (.versionMismatch (.ofText "lib") .current ⟨9, 0, 0⟩) ∧
      fs.header (.ofText "lib") ⟨9, 0, 0⟩ =
        .error (.corruptContainer (.ofText "lib") (.indexTooLong 0xFFFFFFFFFFFFFFFF 0)) := by
  intro f fs
  have hfile : fs.library (.ofText "lib") = .ok f := by
    rfl
  have hframed : Framed f := by
    refine ⟨?_, ?_, ?_⟩ <;> decide +kernel
  obtain ⟨-, -, -, hother, -⟩ := header_classification hfile .current
  obtain ⟨-, -, -, -, hshort, -⟩ := header_classification hfile ⟨9, 0, 0⟩
  exact ⟨hframed, hother hframed (by decide +kernel), hshort hframed (by decide +kernel) (by decide +kernel)⟩

/-! ## Places in the payload -/

section

variable (h : Framed f) (hsize : f.length < 2 ^ 64) {index : Index} (hindex : Holds f index)

include hsize hindex in
/-- The payload starts within the file, so its start is a sum that fits. -/
theorem toNat_payloadStart :
    (UInt64.ofNat Preamble.length + (writtenPreamble f).indexLength).toNat = 28 + indexLength f := by
  have hlength : (UInt64.ofNat Preamble.length).toNat = 28 := rfl
  have hfits := hindex.1
  rw [UInt64.toNat_add, toNat_indexLength, hlength, Nat.mod_eq_of_lt (by omega)]

theorem checkedAdd_eq_some_iff {a b c : UInt64} : checkedAdd a b = some c ↔ c.toNat = a.toNat + b.toNat := by
  constructor
  · exact toNat_checkedAdd
  · intro hc
    have hfits : a.toNat + b.toNat < UInt64.size := hc ▸ c.toNat_lt
    rw [checkedAdd, if_pos hfits, Option.some.injEq, ← UInt64.toNat_inj, UInt64.toNat_add,
      Nat.mod_eq_of_lt hfits, hc]

include hsize hindex in
/-- The place of an entry is told as the numbers themselves, if it is told. -/
theorem range?_eq_some_iff {e : Entry} {start stop : UInt64} :
    range? (writtenPreamble f) e = some (start, stop) ↔
      start.toNat = 28 + indexLength f + e.offset.toNat ∧ stop.toNat = start.toNat + e.length.toNat := by
  simp only [range?, bind, Option.bind_eq_some_iff, checkedAdd_eq_some_iff, toNat_payloadStart hsize hindex]
  constructor
  · rintro ⟨start', hstart, stop', hstop, heq⟩
    cases heq
    exact ⟨hstart, hstop⟩
  · rintro ⟨hstart, hstop⟩
    exact ⟨start, hstart, stop, hstop, rfl⟩

/-! ## Fragments -/

include h hindex

theorem fragmentNames_of_holds : fragmentNames path f = .ok index.names := by
  rw [fragmentNames, preamble_of_framed path h]
  simp only [bind, Except.bind, index_of_holds path hindex]
  rfl

theorem fragment_of_no_entry {name : String} (hentry : index.entry? name = none) :
    fragment path f name = .error (.fragmentNotFound path name) := by
  rw [fragment, preamble_of_framed path h]
  simp only [bind, Except.bind, index_of_holds path hindex, hentry]
  rfl

include hsize

/-- The bytes of an entry that ends within the file are those at its place. -/
theorem fragment_of_inside {name : String} {e : Entry} (hentry : index.entry? name = some e)
    (hinside : 28 + indexLength f + e.offset.toNat + e.length.toNat ≤ f.length) :
    fragment path f name =
      .ok ((f.drop (28 + indexLength f + e.offset.toNat)).take e.length.toNat) := by
  have hstart : (UInt64.ofNat (28 + indexLength f + e.offset.toNat)).toNat =
      28 + indexLength f + e.offset.toNat := Wire.toNat_count (by omega)
  have hstop : (UInt64.ofNat (28 + indexLength f + e.offset.toNat + e.length.toNat)).toNat =
      28 + indexLength f + e.offset.toNat + e.length.toNat := Wire.toNat_count (by omega)
  have hrange := (range?_eq_some_iff hsize hindex).2 ⟨hstart, hstop.trans (by rw [hstart])⟩
  have hspan : (UInt64.ofNat (28 + indexLength f + e.offset.toNat + e.length.toNat) -
      UInt64.ofNat (28 + indexLength f + e.offset.toNat)).toNat = e.length.toNat := by
    rw [UInt64.toNat_sub_of_le _ _ (by rw [UInt64.le_iff_toNat_le]; omega), hstart, hstop]
    omega
  rw [fragment, preamble_of_framed path h]
  simp only [bind, Except.bind, index_of_holds path hindex, hentry, hrange, hstart, hstop, hspan, if_pos hinside]
  rfl

theorem fragment_of_outside {name : String} {e : Entry} (hentry : index.entry? name = some e)
    (houtside : f.length < 28 + indexLength f + e.offset.toNat + e.length.toNat) :
    fragment path f name =
      .error (.corruptContainer path (.fragmentOutside name e.offset e.length)) := by
  rw [fragment, preamble_of_framed path h]
  simp only [bind, Except.bind, index_of_holds path hindex, hentry]
  cases hrange : range? (writtenPreamble f) e with
  | none => rfl
  | some range =>
    obtain ⟨start, stop⟩ := range
    obtain ⟨hstart, hstop⟩ := (range?_eq_some_iff hsize hindex).1 hrange
    simp only [if_neg (show ¬ stop.toNat ≤ f.length by omega)]
    rfl

end

theorem fragmentNames_of_error {e : LibraryError} (h : preamble path f = .error e) :
    fragmentNames path f = .error e := by
  rw [fragmentNames, h]
  rfl

theorem fragment_of_error {e : LibraryError} (h : preamble path f = .error e) (name : String) :
    fragment path f name = .error e := by
  rw [fragment, h]
  rfl

/-- The two questions fail alike where there is no index. -/
theorem fragments_of_not_holds (h : ¬ Framed f ∨ ∀ index, ¬ Holds f index) :
    ∃ corruption, fragmentNames path f = .error (.corruptContainer path corruption) ∧
      ∀ name, fragment path f name = .error (.corruptContainer path corruption) := by
  by_cases hframed : Framed f
  · obtain ⟨corruption, hindex⟩ := index_of_not_holds path hframed.1 (h.resolve_left (not_not.2 hframed))
    refine ⟨corruption, ?_, fun name => ?_⟩
    · rw [fragmentNames, preamble_of_framed path hframed]
      simp only [bind, Except.bind, hindex]
    · rw [fragment, preamble_of_framed path hframed]
      simp only [bind, Except.bind, hindex]
  · obtain ⟨corruption, hpreamble⟩ := preamble_of_not_framed path hframed
    exact ⟨corruption, fragmentNames_of_error path hpreamble, fragment_of_error path hpreamble⟩

theorem Index.entry?_eq_none_iff {index : Index} {name : String} :
    index.entry? name = none ↔ name ∉ index.names := by
  unfold Index.entry?
  simp [names]

theorem Index.exists_entry_of_mem {index : Index} {name : String} (h : name ∈ index.names) :
    ∃ e ∈ index.fragments, e.name = name ∧ index.entry? name = some e := by
  cases hentry : index.entry? name with
  | none => exact absurd h (Index.entry?_eq_none_iff.1 hentry)
  | some e =>
    have hname := List.find?_some hentry
    exact ⟨e, List.mem_of_find?_eq_some hentry, eq_of_beq hname, rfl⟩

theorem Index.entry?_of_first {index : Index} {before after : List Entry} {e : Entry}
    (hsplit : index.fragments = before ++ e :: after) (hfirst : ∀ x ∈ before, x.name ≠ e.name) :
    index.entry? e.name = some e := by
  unfold Index.entry?
  rw [List.find?_eq_some_iff_append]
  exact ⟨beq_self_eq_true _, before, after, hsplit, fun x hx => by simpa using hfirst x hx⟩

/-- Bytes at a place within a file stand between others. -/
theorem exists_split {f : Bytes} {start length : Nat} (h : start + length ≤ f.length) :
    ∃ front back, f = front ++ (f.drop start).take length ++ back ∧ front.length = start ∧
      ((f.drop start).take length).length = length := by
  refine ⟨f.take start, f.drop (start + length), ?_, ?_, ?_⟩
  · rw [List.append_assoc, ← List.drop_drop, List.take_append_drop, List.take_append_drop]
  · rw [List.length_take]
    omega
  · rw [List.length_take, List.length_drop]
    omega

/-- **Fragments stay inside the payload.** The file of a path holds the bytes `f`, fewer than 2⁶⁴. If it has no
good preamble or no index, the names and every fragment are refused with one and the same corruption. If it has an
index, the names are those of the index, and a fragment is not found just when its name is not among them. For the
first entry of a name, with its offset and its length as the numbers that they are: if the place ends within the
file, the fragment is the bytes there, which are as many as the entry says and have the preamble and the index in
front of them; else it is corrupt. The sums in 64 bits that this is told by are the sums of these numbers: the
first always fits, the others are given just when they fit. -/
theorem fragment_inside_payload {fs : FileSystem} {path : Path} {f : Bytes} (hfile : fs.library path = .ok f)
    (hsize : f.length < 2 ^ 64) :
    ((¬ Framed f ∨ ∀ index, ¬ Holds f index) → ∃ corruption,
      fs.fragmentNames path = .error (.corruptContainer path corruption) ∧
      ∀ name, fs.fragment path name = .error (.corruptContainer path corruption)) ∧
    (∀ index, Framed f → Holds f index →
      fs.fragmentNames path = .ok index.names ∧
      (∀ name, fs.fragment path name = .error (.fragmentNotFound path name) ↔ name ∉ index.names) ∧
      (∀ (before : List Entry) (e : Entry) (after : List Entry),
        index.fragments = before ++ e :: after → (∀ x ∈ before, x.name ≠ e.name) →
        (28 + indexLength f + e.offset.toNat + e.length.toNat ≤ f.length →
          ∃ front bytes back, f = front ++ bytes ++ back ∧
            front.length = 28 + indexLength f + e.offset.toNat ∧ bytes.length = e.length.toNat ∧
            fs.fragment path e.name = .ok bytes) ∧
        (f.length < 28 + indexLength f + e.offset.toNat + e.length.toNat →
          fs.fragment path e.name =
            .error (.corruptContainer path (.fragmentOutside e.name e.offset e.length)))) ∧
      (UInt64.ofNat Preamble.length + (writtenPreamble f).indexLength).toNat = 28 + indexLength f ∧
      (∀ (e : Entry) (start stop : UInt64), range? (writtenPreamble f) e = some (start, stop) ↔
        start.toNat = 28 + indexLength f + e.offset.toNat ∧
          stop.toNat = start.toNat + e.length.toNat)) := by
  rw [FileSystem.fragmentNames_of_library hfile, funext (FileSystem.fragment_of_library hfile)]
  refine ⟨fragments_of_not_holds path, fun index h hindex => ⟨fragmentNames_of_holds path h hindex, ?_, ?_,
    toNat_payloadStart hsize hindex, fun e start stop => range?_eq_some_iff hsize hindex⟩⟩
  · intro name
    rw [← Index.entry?_eq_none_iff]
    constructor
    · intro hmissing
      cases hentry : index.entry? name with
      | none => rfl
      | some e =>
        by_cases hinside : 28 + indexLength f + e.offset.toNat + e.length.toNat ≤ f.length
        · rw [fragment_of_inside path h hsize hindex hentry hinside] at hmissing
          cases hmissing
        · rw [fragment_of_outside path h hsize hindex hentry (by omega)] at hmissing
          cases hmissing
    · exact fragment_of_no_entry path h hindex
  · intro before e after hsplit hfirst
    have hentry := Index.entry?_of_first hsplit hfirst
    refine ⟨fun hinside => ?_, fragment_of_outside path h hsize hindex hentry⟩
    obtain ⟨front, back, hf, hfront, hlength⟩ := exists_split hinside
    exact ⟨front, _, back, hf, hfront, hlength, fragment_of_inside path h hsize hindex hentry hinside⟩

/-- An index that lies: the place of its second fragment ends far beyond all 64-bit numbers. -/
theorem fragment_inside_payload_forged :
    let index : Index := ⟨"m", "", [⟨"a", 1, 2⟩, ⟨"b", 0xFFFFFFFFFFFFFFFF, 0xFFFFFFFFFFFFFFFF⟩]⟩
    let preamble : Preamble := ⟨.current, .ofNat index.encode.length⟩
    let f : Bytes := preamble.encode ++ index.encode ++ [7, 8, 9]
    let fs := (FileTree.ofFiles [(Utf8.encode "lib", f)]).toFileSystem
    f.length < 2 ^ 64 ∧ Framed f ∧ Holds f index ∧ fs.fragment (.ofText "lib") "a" = .ok [8, 9] ∧
      fs.fragment (.ofText "lib") "b" = .error (.corruptContainer (.ofText "lib")
        (.fragmentOutside "b" 0xFFFFFFFFFFFFFFFF 0xFFFFFFFFFFFFFFFF)) ∧
      fs.fragment (.ofText "lib") "c" = .error (.fragmentNotFound (.ofText "lib") "c") := by
  intro index preamble f fs
  have hfile : fs.library (.ofText "lib") = .ok f := by
    rfl
  have hsize : f.length < 2 ^ 64 := by
    decide +kernel
  have hframed : Framed f := by
    refine ⟨?_, ?_, ?_⟩ <;> decide +kernel
  have hindex : Holds f index := by
    refine ⟨?_, ?_⟩ <;> decide +kernel
  obtain ⟨-, htells⟩ := fragment_inside_payload hfile hsize
  obtain ⟨-, hmissing, hplaces, -⟩ := htells index hframed hindex
  obtain ⟨hinside, -⟩ := hplaces [] ⟨"a", 1, 2⟩ _ rfl (by simp)
  obtain ⟨-, houtside⟩ := hplaces [⟨"a", 1, 2⟩] ⟨"b", _, _⟩ [] rfl (by simp)
  obtain ⟨front, bytes, back, hf, hfront, hbytes, ha⟩ := hinside (by decide +kernel)
  have hplace : (f.drop front.length).take bytes.length = bytes := by
    rw [hf, List.append_assoc, List.drop_left, List.take_left]
  have hfound : bytes = [8, 9] := by
    rw [← hplace, hfront, hbytes]
    decide +kernel
  exact ⟨hsize, hframed, hindex, hfound ▸ ha, houtside (by decide +kernel),
    (hmissing "c").2 (by simp [index, Index.names])⟩

end TernBackend.Container
