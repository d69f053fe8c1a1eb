import TernBackend.Container.Format
import TernBackend.Package.TableOfContents
import TernBackend.Proofs.Wire.Base64
import TernBackend.Proofs.Wire.Field

/-!
# The parts of a container round trip

The preamble, the index and the table of contents are read back as they were written. The preamble needs
no condition; the index needs that its length fits into 64 bits, and then so do all lengths in it. What is
read as an index or as a table of contents is the written form of what it is read as.
-/

namespace TernBackend.Container

/-! ## The preamble -/

namespace Preamble

@[simp] theorem length_encode (p : Preamble) : p.encode.length = length := by
  simp [encode, magic, length]

/-- The number in a field that stands between others. -/
theorem word_append (before field after : Bytes) :
    word (before ++ (field ++ after)) before.length field.length = Wire.value field := by
  rw [word, List.drop_left, List.take_left]

theorem word_field (before after : Bytes) (start width n : Nat) (hstart : before.length = start)
    (hn : n < 256 ^ width) :
    word (before ++ (Wire.littleEndian width n ++ after)) start width = n := by
  have hword := word_append before (Wire.littleEndian width n) after
  rw [hstart, Wire.length_littleEndian, Wire.value_littleEndian_of_lt hn] at hword
  exact hword

theorem ofFront_encode (p : Preamble) : ofFront p.encode = .ok p := by
  -- every field is read at the length of what was written before it
  have hmagic : p.encode.take 4 = magic := by
    simp [encode, magic]
  have hframing : word p.encode 4 2 = framingVersion.toNat := by
    simp only [encode, List.append_assoc]
    exact word_field magic _ 4 2 _ rfl framingVersion.toNat_lt
  have hmajor : word p.encode 8 4 = p.abiVersion.major.toNat := by
    simp only [encode, List.append_assoc]
    exact word_field (magic ++ (Wire.littleEndian 2 framingVersion.toNat ++ [0, 0])) _ 8 4 _ rfl
      p.abiVersion.major.toNat_lt
  have hminor : word p.encode 12 4 = p.abiVersion.minor.toNat := by
    simp only [encode, List.append_assoc]
    exact word_field (magic ++ (Wire.littleEndian 2 framingVersion.toNat ++ ([0, 0] ++
      Wire.littleEndian 4 p.abiVersion.major.toNat))) _ 12 4 _ rfl p.abiVersion.minor.toNat_lt
  have hpatch : word p.encode 16 4 = p.abiVersion.patch.toNat := by
    simp only [encode, List.append_assoc]
    exact word_field (magic ++ (Wire.littleEndian 2 framingVersion.toNat ++ ([0, 0] ++
      (Wire.littleEndian 4 p.abiVersion.major.toNat ++
        Wire.littleEndian 4 p.abiVersion.minor.toNat)))) _ 16 4 _ rfl p.abiVersion.patch.toNat_lt
  have hlength : word p.encode 20 8 = p.indexLength.toNat := by
    have hword := word_field (magic ++ (Wire.littleEndian 2 framingVersion.toNat ++ ([0, 0] ++
      (Wire.littleEndian 4 p.abiVersion.major.toNat ++ (Wire.littleEndian 4 p.abiVersion.minor.toNat ++
        Wire.littleEndian 4 p.abiVersion.patch.toNat))))) [] 20 8 _ rfl p.indexLength.toNat_lt
    rw [List.append_nil] at hword
    simp only [encode, List.append_assoc]
    simpa only [List.append_assoc] using hword
  rw [ofFront, if_neg fun h => h hmagic, hframing, hmajor, hminor, hpatch, hlength]
  simp [framingVersion]

theorem decode_encode (p : Preamble) (rest : Bytes) : decode (p.encode ++ rest) = .ok (p, rest) := by
  have hcut : Wire.cut? length (p.encode ++ rest) = some (p.encode, rest) := by
    rw [← length_encode p]
    exact Wire.cut?_append _ _
  rw [decode, hcut]
  simp only [ofFront_encode]
  rfl

end Preamble

/-! ## The index -/

theorem Entry.length_encode (e : Entry) : e.encode.length = 24 + (Utf8.encode e.name).length := by
  simp only [encode, List.length_append, Wire.length_encodeText, Wire.length_encodeWord]
  omega

theorem Entry.reads {e : Entry} (h : (Utf8.encode e.name).length < 2 ^ 64) :
    Wire.Reads Entry.decode e.encode e := by
  intro rest
  have hname := Wire.reads_text h (Wire.encodeWord e.offset ++ (Wire.encodeWord e.length ++ rest))
  have hoffset := Wire.reads_word e.offset (Wire.encodeWord e.length ++ rest)
  have hlength := Wire.reads_word e.length rest
  rw [encode, List.append_assoc, List.append_assoc, decode, hname]
  simp only [bind, Except.bind, hoffset, hlength]
  rfl

theorem Index.length_encode (index : Index) :
    index.encode.length = 24 + (Utf8.encode index.moduleName).length +
      (Utf8.encode index.tableOfContents).length + (index.fragments.flatMap Entry.encode).length := by
  simp only [encode, List.length_append, Wire.length_encodeText, Wire.length_encodeList]
  omega

theorem Index.reads {index : Index} (h : index.encode.length < 2 ^ 64) :
    Wire.Reads Index.decode index.encode index := by
  rw [length_encode] at h
  -- an entry takes at least one byte, and a text no more than all bytes: so every count fits
  have hcount : index.fragments.length < 2 ^ 64 := by
    have hbytes : ∀ e : Entry, 1 ≤ e.encode.length := fun e => by
      rw [Entry.length_encode]
      omega
    have hle := Wire.length_le_length_flatMap hbytes index.fragments
    omega
  have hentries : ∀ e ∈ index.fragments, Wire.Reads Entry.decode e.encode e := by
    intro e he
    have hle : e.encode.length ≤ _ := Wire.length_le_flatMap he
    rw [Entry.length_encode] at hle
    exact Entry.reads (by omega)
  intro rest
  have hmodule := Wire.reads_text (s := index.moduleName) (by omega)
    (Wire.encodeText index.tableOfContents ++ (Wire.encodeList Entry.encode index.fragments ++ rest))
  have htable := Wire.reads_text (s := index.tableOfContents) (by omega)
    (Wire.encodeList Entry.encode index.fragments ++ rest)
  have hfragments := Wire.reads_list hcount hentries rest
  rw [encode, List.append_assoc, List.append_assoc, decode, hmodule]
  simp only [bind, Except.bind, htable, hfragments]
  rfl

theorem Entry.canonical : Wire.Canonical Entry.decode Entry.encode := by
  intro bs rest e h
  obtain ⟨⟨name, bs'⟩, hname, h⟩ := bind_eq_ok_iff.1 h
  obtain ⟨⟨offset, bs''⟩, hoffset, h⟩ := bind_eq_ok_iff.1 h
  obtain ⟨⟨length, bs'''⟩, hlength, h⟩ := bind_eq_ok_iff.1 h
  cases h
  rw [Wire.canonical_text hname, Wire.canonical_word hoffset, Wire.canonical_word hlength]
  simp [encode]

theorem Index.canonical : Wire.Canonical Index.decode Index.encode := by
  intro bs rest index h
  obtain ⟨⟨moduleName, bs'⟩, hmodule, h⟩ := bind_eq_ok_iff.1 h
  obtain ⟨⟨tableOfContents, bs''⟩, htable, h⟩ := bind_eq_ok_iff.1 h
  obtain ⟨⟨fragments, bs'''⟩, hfragments, h⟩ := bind_eq_ok_iff.1 h
  cases h
  rw [Wire.canonical_text hmodule, Wire.canonical_text htable, Wire.canonical_list Entry.canonical hfragments]
  simp [encode]

end TernBackend.Container

/-! ## The table of contents -/

namespace TernBackend

theorem TableOfContents.ofEncoded_ofBytes (bytes : Bytes) :
    ofEncoded (ofBytes bytes).encoded = .ok (ofBytes bytes) := by
  have hdecode : Base64.decode (Utf8.encode (Base64.text bytes)) = .ok bytes := by
    rw [Base64.encode_text, Base64.decode_encode]
  rw [ofEncoded, ofBytes, hdecode]
  rfl

/-- What is accepted as a written form is the written form of its bytes. -/
theorem TableOfContents.ofEncoded_eq_ok_iff {encoded : String} {t : TableOfContents} :
    ofEncoded encoded = .ok t ↔ t.encoded = encoded ∧ ofBytes t.bytes = t := by
  constructor
  · intro h
    obtain ⟨bytes, hbytes, rfl⟩ := map_eq_ok_iff.1 h
    have htext : Base64.text bytes = encoded := Utf8.encode_injective <| by
      rw [Base64.encode_text, Base64.encode_of_decode hbytes]
    exact ⟨rfl, by rw [ofBytes, htext]⟩
  · rintro ⟨rfl, h⟩
    rw [← h]
    exact ofEncoded_ofBytes t.bytes

end TernBackend
